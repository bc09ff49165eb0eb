import Guangyang.GoText
import Mathlib.Data.Finset.Card
/-!
# Excelcmp.SheetNames — the names of the three export sheets

The export names its sheets after the two upload filenames (`sheetBaseName`), makes each name a legal
Excel sheet name (`safeSheetName`: no `: \ / ? * [ ]`, at most 31 runes) and, on a collision, tries
`_2`, `_3`, … after a cut-down base (`uniqueSheetName`).

The counter is a Go `int`, here `BitVec 64`: past `2^63 - 1` it wraps to negative values and on to the
start again, so the loop can only try `2^64` numbered names, which are pairwise distinct because the
text after the last `_` gives the counter back.  It therefore returns a fresh name whenever fewer than
`2^64` names are taken (`uniqueSheetName_fresh`); the export takes at most two.
The loop is modelled with fuel; `|used| + 2` passes suffice.  Runes are Lean `Char`s: the file names are
read as valid UTF-8.
-/
namespace Guangyang.Excelcmp

/-- The runes Excel forbids in a sheet name. -/
def forbiddenSheetChars : List Char := [':', '\\', '/', '?', '*', '[', ']']

/-- A legal sheet name: non-empty, at most 31 runes, none of them forbidden. -/
structure SheetNameOK (s : String) : Prop where
  ne_empty : s ≠ ""
  length_le : s.length ≤ 31
  allowed : ∀ c ∈ s.data, c ∉ forbiddenSheetChars

/-- `filepath.Base` on a Unix path: the last element after trailing slashes are dropped; `.` for the
empty path and `/` for a path of slashes. -/
def filepathBase (p : String) : String :=
  if p = "" then "." else
  let q := p.data.rdropWhile (· = '/')
  let r := (q.reverse.takeWhile (· ≠ '/')).reverse
  if r = [] then "/" else ⟨r⟩

/-- `sheetBaseName`: the trimmed file name without directory and extension, `文件` when that is blank.
`strings.LastIndex(name, ".") > 0` holds when a `.` stands after the first rune. -/
def sheetBaseName (filename : String) : String :=
  let name := trimSpace filename
  if name = "" then "文件" else
  let name := filepathBase name
  let pre := ((name.data.reverse.dropWhile (· ≠ '.')).drop 1).reverse
  let name := if '.' ∈ name.data ∧ pre ≠ [] then ⟨pre⟩ else name
  let name := trimSpace name
  if name = "" then "文件" else name

/-- `trimRunes`: the first `n` runes of `s`. -/
def trimRunes (s : String) (n : Int) : String :=
  if n ≤ 0 then "" else if (s.length : Int) ≤ n then s else ⟨s.data.take n.toNat⟩

/-- `safeSheetName`.  The seven `strings.ReplaceAll` calls replace each forbidden rune by `_`, which no
later call replaces, so they act rune by rune. -/
def safeSheetName (name : String) : String :=
  let s := trimSpace name
  let s := if s = "" then "Sheet" else s
  let s : String := ⟨s.data.map (fun c => if c ∈ forbiddenSheetChars then '_' else c)⟩
  if s.length > 31 then trimRunes s 31 else s

/-- The name the loop of `uniqueSheetName` tries at counter `i`: `base`, cut to leave room, then `_i`. -/
def numberedCandidate (base : String) (i : BitVec 64) : String :=
  let suffix := "_" ++ toString i.toInt
  let maxLen : Int := 31 - suffix.length
  let maxLen := if maxLen < 1 then 1 else maxLen
  let cand := if (base.length : Int) > maxLen then trimRunes base maxLen else base
  cand ++ suffix

/-- The loop of `uniqueSheetName` at candidate `cand` and counter `i`, for at most `fuel` passes. -/
def uniqueSheetNameLoop (base : String) (used : Finset String) : Nat → String → BitVec 64 → Option String
  | 0, _, _ => none
  | fuel + 1, cand, i =>
    if cand ∈ used then uniqueSheetNameLoop base used fuel (numberedCandidate base i) (i + 1) else some cand

/-- `uniqueSheetName` with `fuel` passes of its loop: the name, and `used` with it added. -/
def uniqueSheetName (fuel : Nat) (name : String) (used : Finset String) : Option (String × Finset String) :=
  (uniqueSheetNameLoop (safeSheetName name) used fuel (safeSheetName name) 2).map fun cand => (cand, insert cand used)

/-! ## Each name is legal -/

theorem natAbs_toInt_lt (i : BitVec 64) : i.toInt.natAbs < 10 ^ 19 := by
  have := i.isLt
  rw [BitVec.toInt_eq_toNat_cond]
  split <;> omega

/-- `strconv.Itoa` of a 64-bit counter has at most 20 runes. -/
theorem length_toString_toInt (i : BitVec 64) : (toString i.toInt).length ≤ 20 := by
  have h := Nat.repr_length i.toInt.natAbs 19 (by decide) (natAbs_toInt_lt i)
  have e : (toString i.toInt).length = (if i.toInt < 0 then 1 else 0) + (Nat.repr i.toInt.natAbs).length := by
    rw [String.length, data_toString_int, List.length_append]
    split <;> rfl
  rw [e]
  split <;> omega

theorem not_forbidden_of_toString {i : Int} {c : Char} (h : c ∈ (toString i).data) : c ∉ forbiddenSheetChars := by
  rcases mem_toString_int h with h | rfl
  · have := toNat_of_isDigit h
    intro hc
    simp only [forbiddenSheetChars, List.mem_cons, List.mem_singleton, List.not_mem_nil, or_false] at hc
    rcases hc with rfl | rfl | rfl | rfl | rfl | rfl | rfl <;> simp at this
  · decide

theorem trimRunes_spec {s : String} {n : Int} (h0 : 0 < n) (hn : n < s.length) :
    (trimRunes s n).length = n.toNat ∧ ∀ c ∈ (trimRunes s n).data, c ∈ s.data := by
  rw [trimRunes, if_neg (by omega), if_neg (by omega)]
  refine ⟨?_, fun c hc => List.mem_of_mem_take hc⟩
  have hl : s.length = s.data.length := rfl
  simp only [String.length_mk, List.length_take]
  omega

/-- A non-empty name without a forbidden rune, cut to 31 runes, is legal. -/
theorem cut_sheetNameOK {t : String} (hne : t ≠ "") (hall : ∀ c ∈ t.data, c ∉ forbiddenSheetChars) :
    SheetNameOK (if t.length > 31 then trimRunes t 31 else t) := by
  split
  · obtain ⟨hl, hm⟩ := trimRunes_spec (s := t) (n := 31) (by decide) (by omega)
    refine ⟨fun e => ?_, by omega, fun c hc => hall c (hm c hc)⟩
    rw [e] at hl
    exact absurd hl (by decide)
  · exact ⟨hne, by omega, hall⟩

/-- Every name `safeSheetName` gives is legal. -/
theorem safeSheetName_ok (name : String) : SheetNameOK (safeSheetName name) := by
  have hb : (if trimSpace name = "" then "Sheet" else trimSpace name) ≠ "" := by
    split
    · decide
    · assumption
  unfold safeSheetName
  dsimp only
  refine cut_sheetNameOK (fun e => hb (String.ext (List.map_eq_nil_iff.1 (congrArg String.data e)))) fun c hc => ?_
  obtain ⟨d, _, rfl⟩ := List.mem_map.1 hc
  split
  · decide
  · assumption

/-- `base` cut to `m` runes when it is longer: at most `m` runes, each of `base`. -/
theorem cut_spec (base : String) {m : Int} (hm : 0 < m) :
    ((if (base.length : Int) > m then trimRunes base m else base).length : Int) ≤ m ∧
      ∀ c ∈ (if (base.length : Int) > m then trimRunes base m else base).data, c ∈ base.data := by
  split
  · obtain ⟨hl, hc⟩ := trimRunes_spec (s := base) hm (by omega)
    exact ⟨by omega, hc⟩
  · exact ⟨by omega, fun _ => id⟩

/-- Every numbered name tried after a legal base is legal. -/
theorem numberedCandidate_ok {base : String} (hb : SheetNameOK base) (i : BitVec 64) :
    SheetNameOK (numberedCandidate base i) := by
  have hs := length_toString_toInt i
  have hsl : ("_" ++ toString i.toInt).length = 1 + (toString i.toInt).length := by
    rw [String.length_append]; rfl
  unfold numberedCandidate
  dsimp only
  rw [if_neg (show ¬ (31 - (("_" ++ toString i.toInt).length : Int) < 1) by omega)]
  obtain ⟨hl, hc⟩ := cut_spec base (m := 31 - ("_" ++ toString i.toInt).length) (by omega)
  refine ⟨fun e => ?_, ?_, fun c hc' => ?_⟩
  · have := congrArg String.length e
    rw [String.length_append] at this
    have : "".length = 0 := rfl
    omega
  · rw [String.length_append]; omega
  · rw [String.data_append, List.mem_append, String.data_append, List.mem_append] at hc'
    rcases hc' with hc' | hc' | hc'
    · exact hb.allowed c (hc c hc')
    · rw [List.mem_singleton.1 hc']; decide
    · exact not_forbidden_of_toString hc'

/-- Different counters give different names: the text after the last `_` gives the counter back. -/
theorem numberedCandidate_injective (base : String) : Function.Injective (numberedCandidate base) := by
  intro i j h
  unfold numberedCandidate at h
  dsimp only at h
  rw [← String.append_assoc, ← String.append_assoc] at h
  exact BitVec.toInt_inj.1 (eq_of_append_toString_eq (a := '_') rfl (by decide) h).2

/-! ## The loop returns a fresh legal name -/

section Loop

variable {base : String} {used : Finset String}

/-- A name the loop returns is not taken, and it is the first candidate or a numbered one. -/
theorem uniqueSheetNameLoop_some : ∀ {fuel : Nat} {cand s : String} {i : BitVec 64},
    uniqueSheetNameLoop base used fuel cand i = some s → s ∉ used ∧ (s = cand ∨ ∃ j, s = numberedCandidate base j)
  | 0, _, _, _, h => by cases h
  | fuel + 1, cand, s, i, h => by
    rw [uniqueSheetNameLoop] at h
    split at h
    · obtain ⟨hs, rfl | ⟨j, rfl⟩⟩ := uniqueSheetNameLoop_some h
      · exact ⟨hs, .inr ⟨i, rfl⟩⟩
      · exact ⟨hs, .inr ⟨j, rfl⟩⟩
    · cases h
      exact ⟨‹_›, .inl rfl⟩

/-- More passes do not change a name the loop returned. -/
theorem uniqueSheetNameLoop_succ : ∀ {fuel : Nat} {cand s : String} {i : BitVec 64},
    uniqueSheetNameLoop base used fuel cand i = some s → uniqueSheetNameLoop base used (fuel + 1) cand i = some s
  | 0, _, _, _, h => by cases h
  | fuel + 1, cand, s, i, h => by
    rw [uniqueSheetNameLoop] at h ⊢
    split
    · split at h
      · exact uniqueSheetNameLoop_succ h
      · contradiction
    · split at h
      · contradiction
      · exact h

theorem uniqueSheetNameLoop_le {fuel fuel' : Nat} {cand s : String} {i : BitVec 64} (hf : fuel ≤ fuel')
    (h : uniqueSheetNameLoop base used fuel cand i = some s) : uniqueSheetNameLoop base used fuel' cand i = some s := by
  induction hf with
  | refl => exact h
  | step _ ih => exact uniqueSheetNameLoop_succ ih

theorem ofNat_succ_eq_one_add (k : Nat) : BitVec.ofNat 64 (k + 1) = 1 + BitVec.ofNat 64 k := by
  apply BitVec.eq_of_toNat_eq
  have h1 : (1 : BitVec 64).toNat = 1 := rfl
  simp only [BitVec.toNat_ofNat, BitVec.toNat_add, h1]
  omega

/-- A loop that returns nothing found its first candidate and the next `fuel` numbered ones taken. -/
theorem uniqueSheetNameLoop_none : ∀ {fuel : Nat} {cand : String} {i : BitVec 64},
    uniqueSheetNameLoop base used (fuel + 1) cand i = none →
      cand ∈ used ∧ ∀ k < fuel, numberedCandidate base (i + BitVec.ofNat 64 k) ∈ used
  | 0, cand, i, h => by
    rw [uniqueSheetNameLoop] at h
    split at h
    · exact ⟨‹_›, fun k hk => absurd hk (Nat.not_lt_zero k)⟩
    · cases h
  | fuel + 1, cand, i, h => by
    rw [uniqueSheetNameLoop] at h
    split at h
    · obtain ⟨h0, hk⟩ := uniqueSheetNameLoop_none h
      refine ⟨‹_›, fun k hk' => ?_⟩
      cases k with
      | zero => simpa using h0
      | succ k =>
        have := hk k (by omega)
        rwa [BitVec.add_assoc, ← ofNat_succ_eq_one_add] at this
    · cases h

/-- The counters `i, i + 1, …` stay distinct for `2^64` passes. -/
theorem add_ofNat_injOn {n : Nat} (hn : n ≤ 2 ^ 64) (i : BitVec 64) :
    Set.InjOn (fun k => i + BitVec.ofNat 64 k) (Finset.range n) := fun a ha b hb h => by
  have h' := congrArg BitVec.toNat h
  simp only [Finset.coe_range, Set.mem_Iio] at ha hb
  simp only [BitVec.toNat_add, BitVec.toNat_ofNat] at h'
  omega

/-- **With fewer than `2^64` names taken, `|used| + 2` passes find a fresh one**: else the first
`|used| + 1` numbered names, pairwise distinct, would all be taken. -/
theorem uniqueSheetNameLoop_isSome (h : used.card < 2 ^ 64) (cand : String) (i : BitVec 64) :
    (uniqueSheetNameLoop base used (used.card + 2) cand i).isSome := by
  cases hl : uniqueSheetNameLoop base used (used.card + 2) cand i with
  | some s => rfl
  | none =>
    obtain ⟨-, hk⟩ := uniqueSheetNameLoop_none hl
    have hsub : (Finset.range (used.card + 1)).image (fun k => numberedCandidate base (i + BitVec.ofNat 64 k)) ⊆ used :=
      fun x hx => by
        obtain ⟨k, hk', rfl⟩ := Finset.mem_image.1 hx
        exact hk k (Finset.mem_range.1 hk')
    have hinj : Set.InjOn (fun k => numberedCandidate base (i + BitVec.ofNat 64 k)) (Finset.range (used.card + 1)) :=
      fun a ha b hb e => add_ofNat_injOn (by omega) i ha hb (numberedCandidate_injective base e)
    have hcard := Finset.card_le_card hsub
    rw [Finset.card_image_of_injOn hinj, Finset.card_range] at hcard
    omega

end Loop

/-- `uniqueSheetName` returns a fresh legal name once it has `|used| + 2` passes, and the same name with
any more. -/
theorem uniqueSheetName_fresh (name : String) {used : Finset String} (h : used.card < 2 ^ 64) :
    ∃ s, (∀ fuel, used.card + 2 ≤ fuel → uniqueSheetName fuel name used = some (s, insert s used)) ∧
      s ∉ used ∧ SheetNameOK s := by
  obtain ⟨s, hs⟩ := Option.isSome_iff_exists.1
    (@uniqueSheetNameLoop_isSome (safeSheetName name) used h (safeSheetName name) 2)
  obtain ⟨hfresh, hform⟩ := uniqueSheetNameLoop_some hs
  refine ⟨s, fun fuel hf => by rw [uniqueSheetName, uniqueSheetNameLoop_le hf hs]; rfl, hfresh, ?_⟩
  rcases hform with rfl | ⟨j, rfl⟩
  · exact safeSheetName_ok name
  · exact numberedCandidate_ok (safeSheetName_ok name) j

/-! ## The export's three sheets -/

/-- The sheet names `GenerateCompareExportXLSX` takes, in its order: Added, Removed, Changed, each from
a set of the names before it, with the passes its loop needs (`uniqueSheetName_fresh`). -/
def exportSheetNames (file1Name file2Name : String) : Option (String × String × String) :=
  let base1 := sheetBaseName file1Name
  let base2 := sheetBaseName file2Name
  (uniqueSheetName 2 (base2 ++ "相比" ++ base1 ++ "增加") ∅).bind fun (incName, used) =>
  (uniqueSheetName 3 (base2 ++ "相比" ++ base1 ++ "减少") used).bind fun (redName, used) =>
  (uniqueSheetName 4 "变动项目" used).map fun (diffName, _) => (incName, redName, diffName)

theorem exportSheetNames_distinct (file1Name file2Name : String) :
    ∃ inc red diff, exportSheetNames file1Name file2Name = some (inc, red, diff) ∧
      inc ≠ red ∧ inc ≠ diff ∧ red ≠ diff ∧ SheetNameOK inc ∧ SheetNameOK red ∧ SheetNameOK diff := by
  obtain ⟨s1, h1, -, ok1⟩ := @uniqueSheetName_fresh
    (sheetBaseName file2Name ++ "相比" ++ sheetBaseName file1Name ++ "增加") ∅ (by decide)
  obtain ⟨s2, h2, f2, ok2⟩ := @uniqueSheetName_fresh
    (sheetBaseName file2Name ++ "相比" ++ sheetBaseName file1Name ++ "减少") (insert s1 ∅) (by simp)
  have c2 : (insert s2 (insert s1 (∅ : Finset String))).card = 2 := by
    rw [Finset.card_insert_of_not_mem f2]; rfl
  obtain ⟨s3, h3, f3, ok3⟩ := @uniqueSheetName_fresh "变动项目" (insert s2 (insert s1 ∅)) (by omega)
  refine ⟨s1, s2, s3, ?_, fun e => f2 (by simp [e]), fun e => f3 (by simp [e]), fun e => f3 (by simp [e]),
    ok1, ok2, ok3⟩
  simp only [exportSheetNames, h1 2 (by decide), Option.some_bind, h2 3 (by simp), h3 4 (by omega), Option.map_some']

/-- Long file names: the Added and Removed names agree in their first 31 runes, so the Removed sheet is
cut to 29 runes and numbered `_2`. -/
example : exportSheetNames "/data/二〇二四年度固定资产盘点明细表.xlsx" "/data/二〇二五年度固定资产盘点明细表.xlsx" =
    some ("二〇二五年度固定资产盘点明细表相比二〇二四年度固定资产盘点明细",
      "二〇二五年度固定资产盘点明细表相比二〇二四年度固定资产盘点_2", "变动项目") := by
  rfl

/-- **The loop returns a fresh legal name whenever fewer than `2^64` names are taken, so the export's
three sheet names are legal and pairwise distinct.** -/
theorem sheet_names_fresh_and_legal :
    (∀ (name : String) (used : Finset String), used.card < 2 ^ 64 →
      ∃ s, (∀ fuel, used.card + 2 ≤ fuel → uniqueSheetName fuel name used = some (s, insert s used)) ∧
        s ∉ used ∧ SheetNameOK s) ∧
    ∀ file1Name file2Name : String, ∃ inc red diff, exportSheetNames file1Name file2Name = some (inc, red, diff) ∧
      inc ≠ red ∧ inc ≠ diff ∧ red ≠ diff ∧ SheetNameOK inc ∧ SheetNameOK red ∧ SheetNameOK diff :=
  ⟨fun name _ h => uniqueSheetName_fresh name h, exportSheetNames_distinct⟩

end Guangyang.Excelcmp
