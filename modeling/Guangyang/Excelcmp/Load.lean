import Guangyang.Excelcmp.Artifacts
import Mathlib.Data.List.MinMax
/-!
# Excelcmp.Load — one sheet into a key→row map

`loadKeyedSheetXLSX` names the header cells (`normalizeHeaders`), pads or cuts every data row to the
header's width (`padRow`), guesses the key column from the first rows when asked
(`GuessPrimaryKeyColumn`), and files each row under its normalised key, first row first, listing up
to ten repeated keys.

The model reads the sheet as the rows the row iterator yields; opening the file and iterating it are
not modelled.  The key guess reads two classifiers that rest on Go's float parser and Unicode tables
(`Classifiers`); they are parameters, and every result here holds for all of them.
-/
namespace Guangyang.Excelcmp

/-- `Table`. -/
structure Table where
  headers : List String
  rows : List (List String)

/-- `normalizeHeaders`: a blank header cell is named `Unnamed: i`; a name met again gets `.c` after it,
`c` counting that name's repeats.  A generated name may equal a later or earlier name: `A, A, A.1`
becomes `A, A.1, A.1`. -/
def normalizeHeaders (raw : List String) : List String :=
  let h := raw.enum.map (fun p => if trimSpace p.2 = "" then "Unnamed: " ++ toString p.1 else trimSpace p.2)
  (h.foldl (fun (acc : (String → Option Nat) × List String) name =>
    match acc.1 name with
    | some c => (Function.update acc.1 name (some (c + 1)), acc.2 ++ [name ++ "." ++ toString (c + 1)])
    | none => (Function.update acc.1 name (some 0), acc.2 ++ [name])) (fun _ => none, [])).2

/-- `padRow`: the row cut, or padded with `""`, to `n` cells. -/
def padRow (cols : List String) (n : Nat) : List String :=
  if n ≤ 0 then [] else if cols.length = n then cols else (List.range n).map (fun i => cols.getD i "")

theorem padRow_length (cols : List String) (n : Nat) : (padRow cols n).length = n := by
  unfold padRow
  split
  · simp only [List.length_nil]; omega
  · split <;> simp_all

/-! ## What `normalizeHeaders` names

The second loop renames each cell after the names before it (`dedupName`), which is a map over the row
(`normalizeHeaders_eq`).  A generated `name.c` can meet a cell that already reads so. -/

/-- The names `normalizeHeaders` starts from: each cell trimmed, a blank one named `Unnamed: i`. -/
def headerNames (raw : List String) : List String :=
  raw.enum.map (fun p => if trimSpace p.2 = "" then "Unnamed: " ++ toString p.1 else trimSpace p.2)

/-- One pass of `normalizeHeaders`' second loop, over the `seen` counts and the names given so far. -/
def dedupStep (acc : (String → Option Nat) × List String) (name : String) : (String → Option Nat) × List String :=
  match acc.1 name with
  | some c => (Function.update acc.1 name (some (c + 1)), acc.2 ++ [name ++ "." ++ toString (c + 1)])
  | none => (Function.update acc.1 name (some 0), acc.2 ++ [name])

theorem normalizeHeaders_eq_foldl (raw : List String) :
    normalizeHeaders raw = ((headerNames raw).foldl dedupStep (fun _ => none, [])).2 := rfl

/-- The name a cell named `name` gets after the names `before`: `name` the first time, `name.c` at its
`c`-th repeat. -/
def dedupName (before : List String) (name : String) : String :=
  if before.count name = 0 then name else name ++ "." ++ toString (before.count name)

/-- Each name renamed after the names before it. -/
def dedupNames (h : List String) : List String :=
  h.enum.map (fun p => dedupName (h.take p.1) p.2)

theorem dedupNames_append (l : List String) (x : String) :
    dedupNames (l ++ [x]) = dedupNames l ++ [dedupName l x] := by
  simp only [dedupNames, List.enum_append, List.map_append, List.enumFrom_singleton, List.map_cons,
    List.map_nil, List.take_left]
  congr 1
  refine List.map_congr_left fun p hp => ?_
  rw [List.take_append_of_le_length (List.mem_enum hp).1.le]

theorem count_append_singleton (ks : List String) (k k' : String) :
    (ks ++ [k]).count k' = ks.count k' + if k' = k then 1 else 0 := by
  by_cases h : k' = k
  · subst h; simp
  · simp [h, List.count_singleton', Ne.symm h]

theorem foldl_dedupStep : ∀ h : List String, h.foldl dedupStep (fun _ => none, []) =
    (fun n => if h.count n = 0 then none else some (h.count n - 1), dedupNames h) := by
  intro h
  induction h using List.reverseRecOn with
  | nil => rfl
  | append_singleton l x ih =>
    rw [List.foldl_append, ih, List.foldl_cons, List.foldl_nil, dedupNames_append, dedupStep]
    by_cases hx : l.count x = 0
    · simp only [hx, if_true, dedupName]
      refine Prod.ext (funext fun n => ?_) rfl
      by_cases hn : n = x
      · subst hn; simp [count_append_singleton, hx]
      · simp [count_append_singleton, hn]
    · obtain ⟨k, hk⟩ := Nat.exists_eq_succ_of_ne_zero hx
      simp only [hx, if_false, dedupName, hk, Nat.succ_sub_one]
      refine Prod.ext (funext fun n => ?_) rfl
      by_cases hn : n = x
      · subst hn; simp [count_append_singleton, hk]
      · simp [count_append_singleton, hn]

theorem normalizeHeaders_eq (raw : List String) : normalizeHeaders raw = dedupNames (headerNames raw) := by
  rw [normalizeHeaders_eq_foldl, foldl_dedupStep]

@[simp] theorem length_normalizeHeaders (raw : List String) : (normalizeHeaders raw).length = raw.length := by
  simp [normalizeHeaders_eq, dedupNames, headerNames]

/-- A given name is a name of the row, or one of them followed by `.c`, `c` below its count. -/
theorem mem_dedupNames {h : List String} {z : String} (hz : z ∈ dedupNames h) :
    z ∈ h ∨ ∃ y ∈ h, ∃ c, 0 < c ∧ c < h.count y ∧ z = y ++ "." ++ toString c := by
  induction h using List.reverseRecOn with
  | nil => simp [dedupNames] at hz
  | append_singleton l x ih =>
    rw [dedupNames_append, List.mem_append, List.mem_singleton] at hz
    rcases hz with hz | rfl
    · rcases ih hz with hz | ⟨y, hy, c, hc0, hc, rfl⟩
      · exact .inl (List.mem_append_left _ hz)
      · refine .inr ⟨y, List.mem_append_left _ hy, c, hc0, ?_, rfl⟩
        rw [List.count_append]; omega
    · unfold dedupName
      split
      · exact .inl (List.mem_append_right _ (List.mem_singleton_self x))
      · refine .inr ⟨x, List.mem_append_right _ (List.mem_singleton_self x), l.count x, by omega, ?_, rfl⟩
        simp [List.count_append]

theorem eq_of_dot_toString_eq {y₁ y₂ : String} {n₁ n₂ : Nat}
    (h : y₁ ++ "." ++ toString n₁ = y₂ ++ "." ++ toString n₂) : y₁ = y₂ ∧ n₁ = n₂ := by
  obtain ⟨e₁, e₂⟩ := @eq_of_append_toString_eq '.' rfl (by decide) y₁ y₂ n₁ n₂ h
  exact ⟨e₁, Int.ofNat.inj e₂⟩

/-- Renaming makes the names distinct when no name of the row reads as a name, a `.` and a positive
number. -/
theorem dedupNames_nodup {h : List String}
    (hh : ∀ x ∈ h, ∀ (y : String) (n : Nat), 0 < n → x ≠ y ++ "." ++ toString n) : (dedupNames h).Nodup := by
  induction h using List.reverseRecOn with
  | nil => simp [dedupNames]
  | append_singleton l x ih =>
    rw [dedupNames_append, List.nodup_append]
    refine ⟨ih fun x' hx' => hh x' (List.mem_append_left _ hx'), List.nodup_singleton _, ?_⟩
    have hx := hh x (List.mem_append_right _ (List.mem_singleton_self x))
    intro z hz hw
    rw [List.mem_singleton] at hw
    subst hw
    unfold dedupName at hz
    split at hz
    · rename_i h0
      rcases mem_dedupNames hz with hz | ⟨y, _, c, hc0, _, e⟩
      · exact (List.count_eq_zero.1 h0) hz
      · exact hx y c hc0 e
    · rename_i h0
      rcases mem_dedupNames hz with hz | ⟨y, _, c, _, hc, e⟩
      · exact hh _ (List.mem_append_left _ hz) x _ (Nat.pos_of_ne_zero h0) rfl
      · obtain ⟨rfl, rfl⟩ := eq_of_dot_toString_eq e
        omega

theorem dedupName_ne_empty (before : List String) {name : String} (h : name ≠ "") : dedupName before name ≠ "" := by
  unfold dedupName
  split
  · exact h
  · intro e
    have hl := congrArg String.length e
    rw [String.length_append, String.length_append] at hl
    have : ".".length = 1 := rfl
    have : "".length = 0 := rfl
    omega

theorem headerNames_ne_empty {raw : List String} {x : String} (hx : x ∈ headerNames raw) : x ≠ "" := by
  obtain ⟨p, _, rfl⟩ := List.mem_map.1 hx
  split
  · intro e
    have hl := congrArg String.length e
    rw [String.length_append] at hl
    have : "Unnamed: ".length = 9 := rfl
    have : "".length = 0 := rfl
    omega
  · assumption

theorem trimSpace_of_mem_headerNames {raw : List String} {x : String} (hx : x ∈ headerNames raw) :
    trimSpace x = x := by
  obtain ⟨p, _, rfl⟩ := List.mem_map.1 hx
  split
  · exact trimSpace_of_ends (fun c hc => by cases hc; rfl) (getLast?_append_toString _ _)
  · exact trimSpace_trimSpace _

/-- Every name `normalizeHeaders` gives is trimmed. -/
theorem trimSpace_of_mem_normalizeHeaders {raw : List String} {x : String} (hx : x ∈ normalizeHeaders raw) :
    trimSpace x = x := by
  rw [normalizeHeaders_eq] at hx
  rcases mem_dedupNames hx with hx | ⟨y, hy, c, -, -, rfl⟩
  · exact trimSpace_of_mem_headerNames hx
  · refine trimSpace_of_ends (fun d hd => ?_) (getLast?_append_toString _ _)
    obtain ⟨e, es, he⟩ := List.exists_cons_of_ne_nil
      (fun h => headerNames_ne_empty hy (String.ext h))
    have : e = d := by simpa [he] using hd
    subst this
    exact head?_of_trimSpace (trimSpace_of_mem_headerNames hy) e (by simp [he])

/-- Every name `normalizeHeaders` gives is non-empty. -/
theorem ne_empty_of_mem_normalizeHeaders {raw : List String} {x : String} (hx : x ∈ normalizeHeaders raw) :
    x ≠ "" := by
  rw [normalizeHeaders_eq] at hx
  obtain ⟨p, hp, rfl⟩ := List.mem_map.1 hx
  exact dedupName_ne_empty _ (headerNames_ne_empty (List.snd_mem_of_mem_enum hp))

theorem ne_of_dot_not_mem {x : String} (hx : '.' ∉ x.data) (y : String) (n : Nat) : x ≠ y ++ "." ++ toString n :=
  fun e => hx (by rw [e]; simp)

/-- **Header naming.**  `normalizeHeaders` gives one non-empty name per cell.  When no trimmed cell reads
as a name, a `.` and a positive number, the names are distinct, and the key column's lookup
(`indexOfHeader`, first match) and the compared columns' lookup (`headerIndexMap`, last match) agree on
every name. -/
theorem normalizeHeaders_lookups_agree (raw : List String)
    (h : ∀ x ∈ headerNames raw, ∀ (y : String) (n : Nat), 0 < n → x ≠ y ++ "." ++ toString n) :
    (normalizeHeaders raw).length = raw.length ∧ (∀ x ∈ normalizeHeaders raw, x ≠ "") ∧
      (normalizeHeaders raw).Nodup ∧
      ∀ c, indexOrMinusOne (headerIndexMap (normalizeHeaders raw)) c = indexOfHeader (normalizeHeaders raw) c := by
  have hn : (normalizeHeaders raw).Nodup := normalizeHeaders_eq raw ▸ dedupNames_nodup h
  exact ⟨length_normalizeHeaders raw, fun _ => ne_empty_of_mem_normalizeHeaders, hn,
    indexOrMinusOne_headerIndexMap hn⟩

/-- A blank cell between two repeats of a name: it is named after its column, the repeat gets `.1`. -/
theorem normalizeHeaders_lookups_agree_blank :
    normalizeHeaders ["id", "", "id"] = ["id", "Unnamed: 1", "id.1"] ∧
    (normalizeHeaders ["id", "", "id"]).length = 3 ∧ (∀ x ∈ normalizeHeaders ["id", "", "id"], x ≠ "") ∧
      (normalizeHeaders ["id", "", "id"]).Nodup ∧
      ∀ c, indexOrMinusOne (headerIndexMap (normalizeHeaders ["id", "", "id"])) c =
        indexOfHeader (normalizeHeaders ["id", "", "id"]) c := by
  have hd : ∀ x ∈ headerNames ["id", "", "id"], '.' ∉ x.data := by decide
  exact ⟨by decide, normalizeHeaders_lookups_agree _ fun x hx y n _ => ne_of_dot_not_mem (hd x hx) y n⟩

/-- A raw `A.1` after two `A`s: the second `A` is renamed `A.1` as well, and the two lookups resolve
`A.1` to different columns.  A raw `Unnamed: 1` before a blank second cell: the blank cell is not named
`Unnamed: 1`. -/
theorem normalizeHeaders_repeats_name :
    normalizeHeaders ["A", "A", "A.1"] = ["A", "A.1", "A.1"] ∧
      indexOfHeader (normalizeHeaders ["A", "A", "A.1"]) "A.1" = 1 ∧
      indexOrMinusOne (headerIndexMap (normalizeHeaders ["A", "A", "A.1"])) "A.1" = 2 ∧
      normalizeHeaders ["Unnamed: 1", ""] = ["Unnamed: 1", "Unnamed: 1.1"] := by
  decide

/-! ## `GuessPrimaryKeyColumn` -/

/-- The two classifiers `GuessPrimaryKeyColumn` reads besides `isIntegerLikeString`. -/
structure Classifiers where
  isFiniteIntegerFloatString : String → Bool
  isAlnumUnicode : String → Bool

/-- `primaryKeyCandidates`. -/
def primaryKeyCandidates : List String :=
  ["id", "编号", "编码", "资产编号", "资产编码", "序号", "资产号", "code", "no", "序列号"]

/-- `strings.Contains`. -/
def stringsContains (s substr : String) : Bool :=
  s.data.tails.any (fun t => substr.data.isPrefixOf t)

/-- The first `n` values of column `colIdx`, trimmed, or `none` (`hasNull`) when a row is too short
or a value is blank. -/
def columnValues (rows : List (List String)) (n colIdx : Nat) : Option (List String) :=
  (rows.take n).mapM (fun r =>
    match r[colIdx]? with
    | some v => if trimSpace v = "" then none else some (trimSpace v)
    | none => none)

/-- A column's score: ten per candidate its lower-cased name contains, and five when every value
is integer-like, an integral float or alphanumeric. -/
def columnScore (cls : Classifiers) (colName : String) (values : List String) : Nat :=
  10 * (primaryKeyCandidates.filter (fun kw => stringsContains (toLower colName) (toLower kw))).length +
    if values.all (fun v => isIntegerLikeString v || cls.isFiniteIntegerFloatString v || cls.isAlnumUnicode v)
    then 5 else 0

/-- `GuessPrimaryKeyColumn`: the first column of highest score among those whose first `checkRows`
values are present, non-blank and distinct. -/
def guessPrimaryKeyColumn (cls : Classifiers) (tbl : Table) (checkRows : Int) : Option String :=
  if tbl.headers.length = 0 then none else
  let checkRows := if checkRows ≤ 0 then 5 else checkRows.toNat
  let n := min checkRows tbl.rows.length
  let best := tbl.headers.enum.foldl (fun (best : String × Int) p =>
    if n = 0 then best else
    match columnValues tbl.rows n p.1 with
    | none => best
    | some values =>
      if values.Nodup then
        if (columnScore cls p.2 values : Int) > best.2 then (p.2, columnScore cls p.2 values) else best
      else best) ("", -1)
  if best.1 = "" then none else some best.1

/-! ## `loadKeyedSheetXLSX` -/

/-- `keyedSheet`. -/
structure KeyedSheet where
  headers : List String
  key : String
  rowsByKey : RowMap

/-- The state of the `add` closure: `rowsByKey`, `dups`, `seenDup`. -/
structure AddState where
  rowsByKey : RowMap
  dups : List String
  seenDup : List String

/-- The key the `add` closure files a row under: its normalised key cell, or none when the row does
not reach the key column or the key is blank. -/
def rowKey (keyIdx : Nat) (row : List String) : Option String :=
  if keyIdx ≥ row.length then none else
  let k := normalizeScalarForCompare (row.getD keyIdx "")
  if trimSpace k = "" then none else some k

/-- The `add` closure: file the row under its key; a key met again is recorded once in `seenDup`,
and in `dups` while that holds fewer than ten. -/
def addRow (keyIdx : Nat) (st : AddState) (row : List String) : AddState :=
  match rowKey keyIdx row with
  | none => st
  | some k =>
    match h : st.rowsByKey.get? k with
    | some _ =>
      if k ∈ st.seenDup then st
      else { st with seenDup := k :: st.seenDup, dups := if st.dups.length < 10 then st.dups ++ [k] else st.dups }
    | none => { st with rowsByKey := st.rowsByKey.insertNew k row h }

/-- `strconv.Quote` on a rune: `"` and `\` escaped, the ASCII control runes as Go escapes them.  A
non-ASCII rune is kept, which is what Go does for every printable one. -/
def quoteRune (c : Char) : List Char :=
  if c = '"' ∨ c = '\\' then ['\\', c]
  else if c = '\n' then ['\\', 'n'] else if c = '\t' then ['\\', 't'] else if c = '\r' then ['\\', 'r']
  else if c.toNat = 7 then ['\\', 'a'] else if c.toNat = 8 then ['\\', 'b']
  else if c.toNat = 12 then ['\\', 'f'] else if c.toNat = 11 then ['\\', 'v']
  else if c.toNat < 0x20 ∨ c.toNat = 0x7F then ['\\', 'x', Nat.digitChar (c.toNat / 16), Nat.digitChar (c.toNat % 16)]
  else [c]

/-- `%q` of a string. -/
def goQuote (s : String) : String := ⟨'"' :: s.data.flatMap quoteRune ++ ['"']⟩

/-- `loadKeyedSheetXLSX` on the rows of the file's first sheet (`[]` when it has no sheet or no row). -/
def loadKeyedSheetXLSX (cls : Classifiers) (sheet : List (List String)) (checkRows : Int) (key : String)
    (allowGuess : Bool) : Except String (KeyedSheet × List String) :=
  match sheet with
  | [] => .ok (⟨[], key, RowMap.empty⟩, [])
  | rawHeader :: data =>
    let headers := normalizeHeaders rawHeader
    let checkRows := if checkRows ≤ 0 then 5 else checkRows.toNat
    let peek := (data.take checkRows).map (padRow · headers.length)
    let guessed := if allowGuess then guessPrimaryKeyColumn cls ⟨headers, peek⟩ checkRows else some (trimSpace key)
    match guessed with
    | none => .error "无法猜测主键列，请确保包含明显的编号列"
    | some keyUsed =>
      if keyUsed = "" then .error "主键列为空" else
      let keyIdx := indexOfHeader headers keyUsed
      if keyIdx < 0 then .error ("Excel文件中必须同时包含" ++ goQuote keyUsed ++ "列") else
      let st := peek.foldl (addRow keyIdx.toNat) ⟨RowMap.empty, [], []⟩
      let st := ((data.drop checkRows).map (padRow · headers.length)).foldl (addRow keyIdx.toNat) st
      .ok (⟨headers, keyUsed, st.rowsByKey⟩, st.dups)

/-! ## The key guess does not read the classifiers on integer-like cells -/

/-- A cell the key guess reads as integer-like, or a blank one, which rules its column out before any
score. -/
def IntegerLikeOrBlank (v : String) : Prop :=
  trimSpace v = "" ∨ isIntegerLikeString (trimSpace v) = true

instance : DecidablePred IntegerLikeOrBlank := fun v =>
  inferInstanceAs (Decidable (trimSpace v = "" ∨ isIntegerLikeString (trimSpace v) = true))

theorem mem_of_mapM_eq_some {α β : Type} {g : α → Option β} :
    ∀ {l : List α} {vs : List β}, l.mapM g = some vs → ∀ v ∈ vs, ∃ a ∈ l, g a = some v
  | [], vs, h => by
    rw [List.mapM_nil] at h; cases h; simp
  | a :: l, vs, h => by
    rw [List.mapM_cons] at h
    cases hg : g a with
    | none => simp [hg] at h
    | some b =>
      cases hl : l.mapM g with
      | none => rw [hg, hl] at h; cases h
      | some bs =>
        rw [hg, hl] at h
        cases h
        intro v hv
        rcases List.mem_cons.1 hv with rfl | hv
        · exact ⟨a, List.mem_cons_self _ _, hg⟩
        · obtain ⟨a', ha', hg'⟩ := mem_of_mapM_eq_some hl v hv
          exact ⟨a', List.mem_cons_of_mem _ ha', hg'⟩

theorem integerLike_of_columnValues {rows : List (List String)} {n i : Nat} {values : List String}
    (hr : ∀ r ∈ rows, ∀ v ∈ r, IntegerLikeOrBlank v) (h : columnValues rows n i = some values) :
    ∀ v ∈ values, isIntegerLikeString v = true := by
  intro v hv
  obtain ⟨r, hr', hg⟩ := mem_of_mapM_eq_some h v hv
  split at hg
  · rename_i c hc
    split at hg
    · cases hg
    · rename_i hne
      cases hg
      exact (hr r (List.mem_of_mem_take hr') c (List.mem_iff_getElem?.2 ⟨i, hc⟩)).resolve_left hne
  · cases hg

theorem columnScore_congr (cls cls' : Classifiers) (name : String) {values : List String}
    (h : ∀ v ∈ values, isIntegerLikeString v = true) :
    columnScore cls name values = columnScore cls' name values := by
  have e : ∀ c : Classifiers, values.all
      (fun v => isIntegerLikeString v || c.isFiniteIntegerFloatString v || c.isAlnumUnicode v) = true :=
    fun c => List.all_eq_true.2 (fun v hv => by simp [h v hv])
  simp only [columnScore, e]

/-- **The key guess never reads the classifiers when every cell it reads is integer-like or blank.** -/
theorem guessPrimaryKeyColumn_congr (cls cls' : Classifiers) {tbl : Table} (c : Int)
    (hr : ∀ r ∈ tbl.rows, ∀ v ∈ r, IntegerLikeOrBlank v) :
    guessPrimaryKeyColumn cls tbl c = guessPrimaryKeyColumn cls' tbl c := by
  unfold guessPrimaryKeyColumn
  split
  · rfl
  · dsimp only
    generalize min (if c ≤ 0 then 5 else c.toNat) tbl.rows.length = n
    rw [List.foldl_ext _ _ _ (fun best p _ => ?_)]
    split
    · rfl
    · split
      · rfl
      · rename_i values hv
        rw [columnScore_congr cls cls' p.2 (integerLike_of_columnValues hr hv)]

/-! ## The guess is the first best candidate

Scanning the columns in order with a strict `>` against a best started at `-1` is `List.argmax` over
the qualifying columns (`foldl_best`): the highest score wins and, among equals, the earliest column. -/

/-- Column `p.1`, named `p.2`, as a key candidate with its score: when some row is sampled and the
column's first `n` values are present, non-blank and distinct. -/
def keyCandidate (cls : Classifiers) (rows : List (List String)) (n : Nat) (p : Nat × String) :
    Option (String × Nat) :=
  if n = 0 then none else
  match columnValues rows n p.1 with
  | some values => if values.Nodup then some (p.2, columnScore cls p.2 values) else none
  | none => none

theorem keyCandidate_fst {cls : Classifiers} {rows : List (List String)} {n : Nat} {p : Nat × String}
    {c : String × Nat} (h : keyCandidate cls rows n p = some c) : c.1 = p.2 := by
  unfold keyCandidate at h
  split at h
  · cases h
  · split at h
    · split at h
      · cases h; rfl
      · cases h
    · cases h

/-- The key candidates of a table, in column order. -/
def keyCandidates (cls : Classifiers) (tbl : Table) (n : Nat) : List (String × Nat) :=
  tbl.headers.enum.filterMap (keyCandidate cls tbl.rows n)

/-- A running best that a strictly higher score replaces, started below every score, ends at the first
candidate of highest score. -/
theorem foldl_best {α : Type} {F : String × Int → α → String × Int} (cand : α → Option (String × Nat))
    (hF : ∀ best a, F best a = match cand a with
      | none => best
      | some c => if (c.2 : Int) > best.2 then (c.1, (c.2 : Int)) else best) (L : List α) :
    L.foldl F ("", -1) = match (L.filterMap cand).argmax Prod.snd with
      | none => ("", -1)
      | some c => (c.1, (c.2 : Int)) := by
  induction L using List.reverseRecOn with
  | nil => rfl
  | append_singleton l a ih =>
    rw [List.foldl_append, List.foldl_cons, List.foldl_nil, ih, hF, List.filterMap_append]
    cases hc : cand a with
    | none => simp only [List.filterMap_cons, hc, List.filterMap_nil, List.append_nil]
    | some c =>
      simp only [List.filterMap_cons, hc, List.filterMap_nil, List.argmax_concat]
      cases (l.filterMap cand).argmax Prod.snd with
      | none => simp only [if_pos (show (c.2 : Int) > -1 by omega)]
      | some c' =>
        by_cases hlt : c'.2 < c.2
        · simp only [if_pos hlt, if_pos (show (c.2 : Int) > c'.2 by omega)]
        · simp only [if_neg hlt, if_neg (show ¬ (c.2 : Int) > c'.2 by omega)]

/-- The key guess is the first candidate of highest score, unless that candidate is named `""`. -/
theorem guessPrimaryKeyColumn_eq (cls : Classifiers) (tbl : Table) (checkRows : Int) :
    guessPrimaryKeyColumn cls tbl checkRows =
      match (keyCandidates cls tbl (min (if checkRows ≤ 0 then 5 else checkRows.toNat) tbl.rows.length)).argmax
          Prod.snd with
      | none => none
      | some c => if c.1 = "" then none else some c.1 := by
  unfold guessPrimaryKeyColumn
  by_cases h0 : tbl.headers.length = 0
  · simp [h0, keyCandidates, List.length_eq_zero.1 h0]
  rw [if_neg h0]
  dsimp only
  generalize min (if checkRows ≤ 0 then 5 else checkRows.toNat) tbl.rows.length = n
  rw [foldl_best (keyCandidate cls tbl.rows n), ← keyCandidates]
  · cases (keyCandidates cls tbl n).argmax Prod.snd <;> rfl
  · intro best p
    unfold keyCandidate
    split
    · rfl
    · cases columnValues tbl.rows n p.1 with
      | none => rfl
      | some values => by_cases hn : values.Nodup <;> simp only [hn, if_true, if_false]

theorem mem_headers_of_mem_keyCandidates {cls : Classifiers} {tbl : Table} {n : Nat} {c : String × Nat}
    (h : c ∈ keyCandidates cls tbl n) : c.1 ∈ tbl.headers := by
  obtain ⟨p, hp, hpc⟩ := List.mem_filterMap.1 h
  exact keyCandidate_fst hpc ▸ List.snd_mem_of_mem_enum hp

/-- A guessed key is a header. -/
theorem mem_headers_of_guess {cls : Classifiers} {tbl : Table} {checkRows : Int} {key : String}
    (h : guessPrimaryKeyColumn cls tbl checkRows = some key) : key ∈ tbl.headers := by
  rw [guessPrimaryKeyColumn_eq] at h
  split at h
  · cases h
  · rename_i c hc
    split at h
    · cases h
    · cases h
      exact mem_headers_of_mem_keyCandidates (List.argmax_mem hc)

/-- **The key guess is the first column of highest score among those that qualify**, and it guesses
nothing exactly when no column qualifies.  A column's score counts every keyword its name holds. -/
theorem guessPrimaryKeyColumn_eq_argmax (cls : Classifiers) (tbl : Table) {checkRows : Int}
    (hc : 0 < checkRows) (hh : ∀ h ∈ tbl.headers, h ≠ "") :
    guessPrimaryKeyColumn cls tbl checkRows =
        ((keyCandidates cls tbl (min checkRows.toNat tbl.rows.length)).argmax Prod.snd).map Prod.fst ∧
      (guessPrimaryKeyColumn cls tbl checkRows = none ↔ keyCandidates cls tbl (min checkRows.toNat tbl.rows.length) = []) := by
  suffices h : guessPrimaryKeyColumn cls tbl checkRows =
      ((keyCandidates cls tbl (min checkRows.toNat tbl.rows.length)).argmax Prod.snd).map Prod.fst by
    simp [h]
  rw [guessPrimaryKeyColumn_eq, if_neg (show ¬ checkRows ≤ 0 by omega)]
  cases hm : (keyCandidates cls tbl (min checkRows.toNat tbl.rows.length)).argmax Prod.snd with
  | none => rfl
  | some c => exact if_neg (hh _ (mem_headers_of_mem_keyCandidates (List.argmax_mem hm)))

/-- Two keyword columns of equal values: `编号` holds one keyword and scores 15, `资产编号` holds two
(`资产编号` and `编号`) and scores 25, so the later one is chosen.  Every value is integer-like, so no
classifier is read (`guessPrimaryKeyColumn_congr`). -/
theorem guessPrimaryKeyColumn_counts_keywords :
    guessPrimaryKeyColumn ⟨fun _ => false, fun _ => false⟩ ⟨["编号", "资产编号"], [["1", "2"]]⟩ 5 = some "资产编号" ∧
      columnScore ⟨fun _ => false, fun _ => false⟩ "编号" ["1"] = 15 ∧
      columnScore ⟨fun _ => false, fun _ => false⟩ "资产编号" ["2"] = 25 := by
  decide

/-- Two sampled rows, every value alphanumeric: `id` and `code` both score 15 and `名称` repeats a value;
the first of the tie, `id`, is chosen. -/
theorem guessPrimaryKeyColumn_eq_argmax_tie :
    guessPrimaryKeyColumn ⟨fun _ => false, fun _ => true⟩ ⟨["id", "code", "名称"], [["1", "a", "x"], ["2", "b", "x"]]⟩ 5 =
        ((keyCandidates ⟨fun _ => false, fun _ => true⟩ ⟨["id", "code", "名称"], [["1", "a", "x"], ["2", "b", "x"]]⟩
          (min (5 : Int).toNat 2)).argmax Prod.snd).map Prod.fst ∧
      (guessPrimaryKeyColumn ⟨fun _ => false, fun _ => true⟩ ⟨["id", "code", "名称"], [["1", "a", "x"], ["2", "b", "x"]]⟩ 5 = none ↔
        keyCandidates ⟨fun _ => false, fun _ => true⟩ ⟨["id", "code", "名称"], [["1", "a", "x"], ["2", "b", "x"]]⟩
          (min (5 : Int).toNat 2) = []) :=
  guessPrimaryKeyColumn_eq_argmax _ _ (by decide) (by decide)

example : guessPrimaryKeyColumn ⟨fun _ => false, fun _ => true⟩
    ⟨["id", "code", "名称"], [["1", "a", "x"], ["2", "b", "x"]]⟩ 5 = some "id" := by decide

theorem mem_padRow {cols : List String} {n : Nat} {v : String} (h : v ∈ padRow cols n) :
    v ∈ cols ∨ v = "" := by
  unfold padRow at h
  split at h
  · simp at h
  · split at h
    · exact .inl h
    · obtain ⟨i, _, rfl⟩ := List.mem_map.1 h
      rw [List.getD_eq_getElem?_getD]
      cases hc : cols[i]? with
      | none => exact .inr rfl
      | some c => exact .inl (List.mem_iff_getElem?.2 ⟨i, hc⟩)

theorem loadKeyedSheetXLSX_congr (cls cls' : Classifiers) (rawHeader : List String) {data : List (List String)}
    (c : Int) (key : String) (g : Bool) (hr : ∀ r ∈ data, ∀ v ∈ r, IntegerLikeOrBlank v) :
    loadKeyedSheetXLSX cls (rawHeader :: data) c key g = loadKeyedSheetXLSX cls' (rawHeader :: data) c key g := by
  simp only [loadKeyedSheetXLSX]
  rw [guessPrimaryKeyColumn_congr cls cls' _ ?_]
  intro r hm v hv
  obtain ⟨r0, h0, rfl⟩ := List.mem_map.1 hm
  rcases mem_padRow hv with hv | rfl
  · exact hr r0 (List.mem_of_mem_take h0) v hv
  · exact .inl rfl

theorem loadKeyedSheetXLSX_noGuess (cls cls' : Classifiers) (sheet : List (List String)) (c : Int)
    (key : String) : loadKeyedSheetXLSX cls sheet c key false = loadKeyedSheetXLSX cls' sheet c key false := by
  cases sheet <;> rfl

/-! ## What the loader files -/

theorem exists_ok_of_toOption_map {α : Type} {x : Except String α} {P : α → Prop} [DecidablePred P]
    (h : x.toOption.map (fun a => decide (P a)) = some true) : ∃ a, x = .ok a ∧ P a := by
  cases x with
  | error e => cases h
  | ok a => exact ⟨a, rfl, of_decide_eq_true (Option.some.inj h)⟩

/-- The `add` loop after the rows `done`: each key maps to the first row filed under it, `dups` is
empty exactly when no key was filed twice, and `seenDup` is empty exactly when `dups` is. -/
structure AddInv (keyIdx : Nat) (done : List (List String)) (st : AddState) : Prop where
  first : ∀ k, st.rowsByKey.get? k = done.find? (fun r => rowKey keyIdx r = some k)
  dups : st.dups = [] ↔ (done.filterMap (rowKey keyIdx)).Nodup
  seen : st.seenDup = [] ↔ st.dups = []

theorem find?_rowKey_singleton {keyIdx : Nat} {row : List String} {k : String} :
    [row].find? (fun r => rowKey keyIdx r = some k) = if rowKey keyIdx row = some k then some row else none := by
  by_cases h : rowKey keyIdx row = some k <;> simp [h]

theorem find?_append_rowKey {keyIdx : Nat} (done : List (List String)) (row : List String) (k : String) :
    (done ++ [row]).find? (fun r => rowKey keyIdx r = some k) =
      (done.find? (fun r => rowKey keyIdx r = some k)).or (if rowKey keyIdx row = some k then some row else none) := by
  rw [List.find?_append, find?_rowKey_singleton]

/-- Under the invariant a key was read from the rows done exactly when the map holds it. -/
theorem AddInv.mem_iff {keyIdx : Nat} {done : List (List String)} {st : AddState} (h : AddInv keyIdx done st)
    (k : String) : k ∈ done.filterMap (rowKey keyIdx) ↔ (st.rowsByKey.get? k).isSome := by
  rw [h.first, List.find?_isSome, List.mem_filterMap]
  simp

theorem addRow_inv {keyIdx : Nat} {done : List (List String)} {st : AddState} (h : AddInv keyIdx done st)
    (row : List String) : AddInv keyIdx (done ++ [row]) (addRow keyIdx st row) := by
  unfold addRow
  cases hk : rowKey keyIdx row with
  | none =>
    refine ⟨fun k => by simp [find?_append_rowKey, h.first, hk], ?_, h.seen⟩
    simp [List.filterMap_append, hk, h.dups]
  | some k =>
    have hnd : ((done ++ [row]).filterMap (rowKey keyIdx)).Nodup ↔
        (done.filterMap (rowKey keyIdx)).Nodup ∧ k ∉ done.filterMap (rowKey keyIdx) := by
      simp [List.filterMap_append, hk, List.nodup_append]
    dsimp only
    split
    · rename_i r hr
      have hk' : k ∈ done.filterMap (rowKey keyIdx) := (h.mem_iff k).2 (by simp [hr])
      have hfirst : ∀ k', st.rowsByKey.get? k' = (done ++ [row]).find? (fun r => rowKey keyIdx r = some k') := by
        intro k'
        rw [find?_append_rowKey, ← h.first]
        by_cases hkk : k = k'
        · subst hkk; simp [hr]
        · simp [hk, hkk]
      split
      · rename_i hs
        have hd : st.dups ≠ [] := fun e => by simp [h.seen.2 e] at hs
        exact ⟨hfirst, by rw [hnd]; simp [hd, hk'], h.seen⟩
      · have hd : (if st.dups.length < 10 then st.dups ++ [k] else st.dups) ≠ [] := by
          split
          · simp
          · rename_i hl; intro e; simp [e] at hl
        exact ⟨hfirst, by rw [hnd]; simp [hd, hk'], by simp [hd]⟩
    · rename_i hr
      have hk' : k ∉ done.filterMap (rowKey keyIdx) := fun hm => by simpa [hr] using (h.mem_iff k).1 hm
      refine ⟨fun k' => ?_, by rw [hnd, ← h.dups]; simp [hk'], h.seen⟩
      rw [RowMap.get?_insertNew, find?_append_rowKey, ← h.first]
      by_cases hkk : k' = k
      · subst hkk; simp [hr, hk]
      · simp [hkk, Ne.symm hkk, hk]

theorem foldl_addRow_inv (keyIdx : Nat) : ∀ (rows done : List (List String)) (st : AddState),
    AddInv keyIdx done st → AddInv keyIdx (done ++ rows) (rows.foldl (addRow keyIdx) st)
  | [], done, st, h => by simpa using h
  | row :: rows, done, st, h => by
    simpa using foldl_addRow_inv keyIdx rows (done ++ [row]) _ (addRow_inv h row)

/-- What a loaded sheet files, its data rows padded to the header's width being `rows`: its keys are
exactly the keys of those rows, each maps to the first row filed under it, and the duplicate list is
empty exactly when no key is filed twice. -/
structure Filed (keyIdx : Nat) (rows : List (List String)) (m : RowMap) (dups : List String) : Prop where
  keys : ∀ k, k ∈ m.keys ↔ some k ∈ rows.map (rowKey keyIdx)
  first : ∀ k, m.get? k = rows.find? (fun r => rowKey keyIdx r = some k)
  dups_nil : dups = [] ↔ (rows.filterMap (rowKey keyIdx)).Nodup

/-- An accepted load, unpacked: the normalised header row, a key named among it, and the `add` loop
run over every data row padded to the header's width. -/
theorem loadKeyedSheetXLSX_ok {cls : Classifiers} {rawHeader : List String} {data : List (List String)}
    {checkRows : Int} {key : String} {allowGuess : Bool} {s : KeyedSheet} {dups : List String}
    (h : loadKeyedSheetXLSX cls (rawHeader :: data) checkRows key allowGuess = .ok (s, dups)) :
    s.headers = normalizeHeaders rawHeader ∧ s.key ≠ "" ∧ 0 ≤ indexOfHeader s.headers s.key ∧
      s.rowsByKey = ((data.map (padRow · s.headers.length)).foldl (addRow (indexOfHeader s.headers s.key).toNat)
        ⟨RowMap.empty, [], []⟩).rowsByKey ∧
      dups = ((data.map (padRow · s.headers.length)).foldl (addRow (indexOfHeader s.headers s.key).toNat)
        ⟨RowMap.empty, [], []⟩).dups := by
  simp only [loadKeyedSheetXLSX] at h
  split at h
  · cases h
  · rename_i keyUsed _
    split at h
    · cases h
    rename_i hne
    split at h
    · cases h
    rename_i hidx
    simp only [Except.ok.injEq, Prod.mk.injEq] at h
    obtain ⟨rfl, rfl⟩ := h
    refine ⟨rfl, hne, not_lt.1 hidx, ?_, ?_⟩ <;>
      simp only [← List.foldl_append, ← List.map_append, List.take_append_drop]

/-- `loadKeyedSheetXLSX` on a sheet with a header row, its two passes over the data rows joined. -/
theorem loadKeyedSheetXLSX_cons (cls : Classifiers) (rawHeader : List String) (data : List (List String))
    (checkRows : Int) (key : String) (allowGuess : Bool) :
    loadKeyedSheetXLSX cls (rawHeader :: data) checkRows key allowGuess =
      match (if allowGuess then guessPrimaryKeyColumn cls ⟨normalizeHeaders rawHeader,
          (data.take (if checkRows ≤ 0 then 5 else checkRows.toNat)).map
            (padRow · (normalizeHeaders rawHeader).length)⟩ ((if checkRows ≤ 0 then 5 else checkRows.toNat : Nat) : Int)
        else some (trimSpace key)) with
      | none => .error "无法猜测主键列，请确保包含明显的编号列"
      | some keyUsed =>
        if keyUsed = "" then .error "主键列为空" else
        if indexOfHeader (normalizeHeaders rawHeader) keyUsed < 0 then
          .error ("Excel文件中必须同时包含" ++ goQuote keyUsed ++ "列") else
        .ok (⟨normalizeHeaders rawHeader, keyUsed, ((data.map (padRow · (normalizeHeaders rawHeader).length)).foldl
            (addRow (indexOfHeader (normalizeHeaders rawHeader) keyUsed).toNat) ⟨RowMap.empty, [], []⟩).rowsByKey⟩,
          ((data.map (padRow · (normalizeHeaders rawHeader).length)).foldl
            (addRow (indexOfHeader (normalizeHeaders rawHeader) keyUsed).toNat) ⟨RowMap.empty, [], []⟩).dups) := by
  simp only [loadKeyedSheetXLSX, ← List.foldl_append, ← List.map_append, List.take_append_drop]

/-- **The loader files every data row whose key is not blank.**  A loaded sheet's header row is the
normalised first row, and its map and duplicate list are what `Filed` says of the padded data rows,
under the chosen key's column. -/
theorem loadKeyedSheetXLSX_files_rows (cls : Classifiers) (rawHeader : List String) (data : List (List String))
    (checkRows : Int) (key : String) (allowGuess : Bool) {s : KeyedSheet} {dups : List String}
    (h : loadKeyedSheetXLSX cls (rawHeader :: data) checkRows key allowGuess = .ok (s, dups)) :
    s.headers = normalizeHeaders rawHeader ∧
      Filed (indexOfHeader s.headers s.key).toNat (data.map (padRow · s.headers.length)) s.rowsByKey dups := by
  obtain ⟨hh, -, -, hm, hd⟩ := loadKeyedSheetXLSX_ok h
  refine ⟨hh, ?_⟩
  have hi := foldl_addRow_inv (indexOfHeader s.headers s.key).toNat (data.map (padRow · s.headers.length)) []
    ⟨RowMap.empty, [], []⟩ ⟨fun _ => rfl, by simp, Iff.rfl⟩
  rw [List.nil_append] at hi
  rw [hm, hd]
  refine ⟨fun k => ?_, hi.first, hi.dups⟩
  rw [← RowMap.get?_isSome_iff, hi.first, List.find?_isSome]
  simp [List.mem_map]

/-- Six data rows whose first five keys are distinct: the guess picks `id`, and the sixth row's key is
reported as a duplicate. -/
theorem loadKeyedSheetXLSX_files_rows_six : ∃ s dups, loadKeyedSheetXLSX ⟨fun _ => false, fun _ => false⟩
      [["id", "A"], ["1", "a"], ["2", "b"], ["3", "c"], ["4", "d"], ["5", "e"], ["1", "f"]] 5 "" true =
      .ok (s, dups) ∧ dups = ["1"] ∧ s.headers = normalizeHeaders ["id", "A"] ∧
      Filed (indexOfHeader s.headers s.key).toNat
        ([["1", "a"], ["2", "b"], ["3", "c"], ["4", "d"], ["5", "e"], ["1", "f"]].map (padRow · s.headers.length))
        s.rowsByKey dups := by
  obtain ⟨⟨s, dups⟩, h, hd⟩ := @exists_ok_of_toOption_map _ (loadKeyedSheetXLSX ⟨fun _ => false, fun _ => false⟩
    [["id", "A"], ["1", "a"], ["2", "b"], ["3", "c"], ["4", "d"], ["5", "e"], ["1", "f"]] 5 "" true)
    (fun p => p.2 = ["1"]) _ (by decide)
  exact ⟨s, dups, h, hd, loadKeyedSheetXLSX_files_rows _ _ _ _ _ _ h⟩

end Guangyang.Excelcmp
