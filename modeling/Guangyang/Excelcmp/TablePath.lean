import Guangyang.Excelcmp.Generate
/-!
# Excelcmp.TablePath — the whole-table reader, `buildKeyRowMap` and `CompareArtifacts`

Before the streaming loader, a sheet was read whole (`readXLSXFirstSheetTable`), its key guessed from
the table, and both tables filed by `buildKeyRowMap` inside `CompareArtifacts`.  The tests still take
that path.  `buildKeyRowMap` runs the same `add` closure as `loadKeyedSheetXLSX`; both report the
first ten keys met a second time, in that order (`add_loops_report_repeats`).
-/
namespace Guangyang.Excelcmp

/-! ## The keys met a second time -/

/-- The keys at their second occurrence, in the order of those occurrences. -/
def secondOccurrences (ks : List String) : List String :=
  ks.enum.filterMap (fun p => if (ks.take p.1).count p.2 = 1 then some p.2 else none)

theorem secondOccurrences_append (ks : List String) (k : String) :
    secondOccurrences (ks ++ [k]) = secondOccurrences ks ++ if ks.count k = 1 then [k] else [] := by
  simp only [secondOccurrences, List.enum_append, List.filterMap_append, List.enumFrom_singleton,
    List.filterMap_cons, List.filterMap_nil, List.take_left]
  congr 1
  · refine List.filterMap_congr fun p hp => ?_
    rw [List.take_append_of_le_length (List.mem_enum hp).1.le]
  · by_cases h : ks.count k = 1 <;> simp [h]

theorem mem_secondOccurrences {ks : List String} {k : String} : k ∈ secondOccurrences ks ↔ 2 ≤ ks.count k := by
  induction ks using List.reverseRecOn with
  | nil => simp [secondOccurrences]
  | append_singleton ks x ih =>
    rw [secondOccurrences_append, List.mem_append, ih, count_append_singleton]
    by_cases hk : k = x
    · subst hk
      by_cases h1 : ks.count k = 1
      · rw [if_pos h1, h1]; simp
      · rw [if_neg h1, if_pos rfl]; simp only [List.not_mem_nil, or_false]; omega
    · split <;> simp [hk]

theorem secondOccurrences_nodup (ks : List String) : (secondOccurrences ks).Nodup := by
  induction ks using List.reverseRecOn with
  | nil => simp [secondOccurrences]
  | append_singleton ks x ih =>
    rw [secondOccurrences_append]
    split
    · rename_i h1
      refine List.nodup_append.2 ⟨ih, List.nodup_singleton x, fun y hy hx => ?_⟩
      rw [List.mem_singleton] at hx
      subst hx
      have := mem_secondOccurrences.1 hy
      omega
    · rwa [List.append_nil]

/-! ## The `add` loop's duplicate list -/

/-- The duplicate bookkeeping of the `add` loop after the keys `ks`: `seenDup` holds the keys met twice,
and `dups` the first ten of them, in the order they were met a second time. -/
structure DupInv (ks : List String) (st : AddState) : Prop where
  seen : ∀ k, k ∈ st.seenDup ↔ 2 ≤ ks.count k
  dups : st.dups = (secondOccurrences ks).take 10

/-- Appending to a list cut at ten while it is shorter than ten is cutting the longer list. -/
theorem take_ten_append (l : List String) (k : String) :
    (if (l.take 10).length < 10 then l.take 10 ++ [k] else l.take 10) = (l ++ [k]).take 10 := by
  by_cases h : l.length < 10
  · rw [if_pos (by simp; omega), List.take_of_length_le (by omega), List.take_of_length_le (by simp; omega)]
  · rw [if_neg (by simp; omega), List.take_append_of_le_length (by omega)]

/-- One more key `k` makes `k'` seen twice exactly when it already was, or it is `k` seen once before. -/
theorem two_le_count_append (ks : List String) (k k' : String) :
    2 ≤ (ks ++ [k]).count k' ↔ 2 ≤ ks.count k' ∨ (k' = k ∧ ks.count k = 1) := by
  rw [count_append_singleton]
  by_cases h : k' = k
  · simp only [h, if_true, true_and]; omega
  · simp only [h, if_false, false_and, or_false, Nat.add_zero]

theorem addRow_dupInv {keyIdx : Nat} {done : List (List String)} {st : AddState} (ha : AddInv keyIdx done st)
    (hd : DupInv (done.filterMap (rowKey keyIdx)) st) (row : List String) :
    DupInv ((done ++ [row]).filterMap (rowKey keyIdx)) (addRow keyIdx st row) := by
  unfold addRow
  rw [List.filterMap_append]
  cases hk : rowKey keyIdx row with
  | none => simpa [hk] using hd
  | some k =>
    simp only [List.filterMap_cons, hk, List.filterMap_nil]
    generalize hks : done.filterMap (rowKey keyIdx) = ks at hd
    have hmem := ha.mem_iff k
    rw [hks] at hmem
    split
    · rename_i r hr
      have hc : 1 ≤ ks.count k := List.count_pos_iff.2 (hmem.2 (by simp [hr]))
      split
      · rename_i hs
        have h2 := (hd.seen k).1 hs
        refine ⟨fun k' => ?_, ?_⟩
        · rw [hd.seen, two_le_count_append]
          exact ⟨Or.inl, fun h => h.elim id fun h' => by omega⟩
        · rw [hd.dups, secondOccurrences_append, if_neg (by omega), List.append_nil]
      · rename_i hs
        have h1 : ks.count k = 1 := by have := (hd.seen k).not.1 hs; omega
        refine ⟨fun k' => ?_, ?_⟩
        · rw [List.mem_cons, hd.seen, two_le_count_append, h1, eq_self_iff_true, and_true, or_comm]
        · show (if st.dups.length < 10 then st.dups ++ [k] else st.dups) = _
          rw [hd.dups, secondOccurrences_append, if_pos h1, take_ten_append]
    · rename_i hr
      have hc : ks.count k = 0 := List.count_eq_zero.2 fun hm => by simpa [hr] using hmem.1 hm
      refine ⟨fun k' => ?_, ?_⟩
      · show k' ∈ st.seenDup ↔ _
        rw [hd.seen, two_le_count_append, hc]
        simp
      · show st.dups = _
        rw [hd.dups, secondOccurrences_append, if_neg (by omega), List.append_nil]

theorem foldl_addRow_dupInv (keyIdx : Nat) : ∀ (rows done : List (List String)) (st : AddState),
    AddInv keyIdx done st → DupInv (done.filterMap (rowKey keyIdx)) st →
      DupInv ((done ++ rows).filterMap (rowKey keyIdx)) (rows.foldl (addRow keyIdx) st)
  | [], done, st, _, hd => by simpa using hd
  | row :: rows, done, st, ha, hd => by
    simpa using foldl_addRow_dupInv keyIdx rows (done ++ [row]) _ (addRow_inv ha row) (addRow_dupInv ha hd row)

/-- What a duplicate list says of the keys `ks` read: the first ten keys met a second time, in that
order, so distinct, and as many as ten or the number of keys met more than once. -/
structure DupReport (ks dups : List String) : Prop where
  eq_take : dups = (secondOccurrences ks).take 10
  nodup : dups.Nodup
  length : dups.length = min 10 (ks.dedup.filter (fun k => 2 ≤ ks.count k)).length

theorem length_secondOccurrences (ks : List String) :
    (secondOccurrences ks).length = (ks.dedup.filter (fun k => 2 ≤ ks.count k)).length := by
  refine ((List.perm_ext_iff_of_nodup (secondOccurrences_nodup ks) ((List.nodup_dedup ks).filter _)).2
    fun k => ?_).length_eq
  rw [mem_secondOccurrences, List.mem_filter, List.mem_dedup, decide_eq_true_eq]
  exact ⟨fun h => ⟨List.count_pos_iff.1 (by omega), h⟩, And.right⟩

theorem DupInv.report {ks : List String} {st : AddState} (h : DupInv ks st) : DupReport ks st.dups :=
  ⟨h.dups, h.dups ▸ (secondOccurrences_nodup ks).sublist (List.take_sublist _ _),
    by rw [h.dups, List.length_take, length_secondOccurrences]⟩

/-- `buildKeyRowMap`: the `add` loop over the table's rows, from an empty map. -/
def buildKeyRowMap (tbl : Table) (keyIdx : Nat) : RowMap × List String :=
  let st := tbl.rows.foldl (addRow keyIdx) ⟨RowMap.empty, [], []⟩
  (st.rowsByKey, st.dups)

/-- The `add` loop over `rows` from an empty map files and reports them as `Filed` and `DupReport` say. -/
theorem addRows_spec (keyIdx : Nat) (rows : List (List String)) :
    Filed keyIdx rows (rows.foldl (addRow keyIdx) ⟨RowMap.empty, [], []⟩).rowsByKey
        (rows.foldl (addRow keyIdx) ⟨RowMap.empty, [], []⟩).dups ∧
      DupReport (rows.filterMap (rowKey keyIdx)) (rows.foldl (addRow keyIdx) ⟨RowMap.empty, [], []⟩).dups := by
  have h0 : AddInv keyIdx [] ⟨RowMap.empty, [], []⟩ := ⟨fun _ => rfl, by simp, Iff.rfl⟩
  have hi := foldl_addRow_inv keyIdx rows [] _ h0
  have hd := foldl_addRow_dupInv keyIdx rows [] _ h0 ⟨fun k => by simp, rfl⟩
  rw [List.nil_append] at hi hd
  refine ⟨⟨fun k => ?_, hi.first, hi.dups⟩, hd.report⟩
  rw [← RowMap.get?_isSome_iff, hi.first, List.find?_isSome]
  simp [List.mem_map]

/-- `readXLSXFirstSheetTable` on the rows of the file's first sheet (`[]` when it has no sheet or no
row): the normalised first row, and every later row cut, or padded with `""`, to the header's width;
under an empty header row no row is kept. -/
def readXLSXFirstSheetTable (sheet : List (List String)) : Table :=
  match sheet with
  | [] => ⟨[], []⟩
  | rawHeader :: data =>
    let headers := normalizeHeaders rawHeader
    ⟨headers, if headers.length = 0 then [] else
      data.map (fun cols => (List.range headers.length).map (fun i => cols.getD i ""))⟩

/-- `CompareArtifacts` on two tables (a `Table` here is never nil). -/
def compareArtifacts (file1 file2 : Table) (key : String) : Except String Artifacts :=
  if trimSpace key = "" then .error "主键列为空" else
  let k1 := indexOfHeader file1.headers key
  let k2 := indexOfHeader file2.headers key
  if k1 < 0 ∨ k2 < 0 then .error ("Excel文件中必须同时包含" ++ goQuote key ++ "列") else
  let r1 := buildKeyRowMap file1 k1.toNat
  if r1.2.length > 0 then
    .error ("文件1主键列“" ++ key ++ "”存在重复值（示例: " ++ goSliceString r1.2 ++ "），请先去重或修正后再比对")
  else
  let r2 := buildKeyRowMap file2 k2.toNat
  if r2.2.length > 0 then
    .error ("文件2主键列“" ++ key ++ "”存在重复值（示例: " ++ goSliceString r2.2 ++ "），请先去重或修正后再比对")
  else compareArtifactsFromMaps file1.headers file2.headers r1.1 r2.1 key

/-- The table path for a first sheet: its table, the key guessed from the table's first five rows, and
`buildKeyRowMap` under that key's column. -/
def tablePathSheet (cls : Classifiers) (sheet : List (List String)) : Option (KeyedSheet × List String) :=
  let tbl := readXLSXFirstSheetTable sheet
  (guessPrimaryKeyColumn cls tbl 5).map fun key =>
    let r := buildKeyRowMap tbl (indexOfHeader tbl.headers key).toNat
    (⟨tbl.headers, key, r.1⟩, r.2)

/-- The table path for two sheets: the key guessed from the first table, then `CompareArtifacts`. -/
def tablePathArtifacts (cls : Classifiers) (sheet1 sheet2 : List (List String)) : Option Artifacts :=
  let tbl1 := readXLSXFirstSheetTable sheet1
  (guessPrimaryKeyColumn cls tbl1 5).bind fun key =>
    (compareArtifacts tbl1 (readXLSXFirstSheetTable sheet2) key).toOption

theorem padRow_eq_range (cols : List String) {n : Nat} (h : 0 < n) :
    padRow cols n = (List.range n).map (fun i => cols.getD i "") := by
  rw [padRow, if_neg (by omega)]
  split
  · rename_i hl
    refine List.ext_getElem (by simp [hl]) fun i h1 _ => ?_
    simp [List.getElem?_eq_getElem h1]
  · rfl

/-- Under a non-empty header row the whole-table reader pads the rows as the loader does. -/
theorem readXLSXFirstSheetTable_cons (rawHeader : List String) (data : List (List String))
    (h : 0 < (normalizeHeaders rawHeader).length) :
    readXLSXFirstSheetTable (rawHeader :: data) =
      ⟨normalizeHeaders rawHeader, data.map (padRow · (normalizeHeaders rawHeader).length)⟩ := by
  simp only [readXLSXFirstSheetTable, if_neg (Nat.pos_iff_ne_zero.1 h), padRow_eq_range _ h]

theorem columnValues_take {rows : List (List String)} {c n : Nat} (h : n ≤ c) (i : Nat) :
    columnValues (rows.take c) n i = columnValues rows n i := by
  simp only [columnValues, List.take_take, Nat.min_eq_left h]

/-- The key guess reads only the first `checkRows` rows. -/
theorem guessPrimaryKeyColumn_take (cls : Classifiers) (headers : List String) (rows : List (List String))
    {c : Nat} (hc : 0 < c) : guessPrimaryKeyColumn cls ⟨headers, rows.take c⟩ c = guessPrimaryKeyColumn cls ⟨headers, rows⟩ c := by
  have hn : min c (rows.take c).length = min c rows.length := by simp only [List.length_take]; omega
  have hk : ∀ n ≤ c, keyCandidates cls ⟨headers, rows.take c⟩ n = keyCandidates cls ⟨headers, rows⟩ n := fun n h => by
    simp only [keyCandidates]
    congr 1
    funext p
    simp only [keyCandidate, columnValues_take h]
  simp only [guessPrimaryKeyColumn_eq, if_neg (show ¬ (c : Int) ≤ 0 by omega), Int.toNat_ofNat, hn,
    hk _ (Nat.min_le_left _ _)]

theorem loadKeyedSheetXLSX_first (cls : Classifiers) (rawHeader : List String) (data : List (List String)) :
    (loadKeyedSheetXLSX cls (rawHeader :: data) 5 "" true).toOption = tablePathSheet cls (rawHeader :: data) := by
  have h5 : (5 : Int).toNat = 5 := rfl
  rw [loadKeyedSheetXLSX_cons]
  simp only [if_true, if_neg (show ¬ (5 : Int) ≤ 0 by decide), h5]
  by_cases h0 : (normalizeHeaders rawHeader).length = 0
  · simp [tablePathSheet, readXLSXFirstSheetTable, guessPrimaryKeyColumn, h0, Except.toOption]
  rw [List.map_take, guessPrimaryKeyColumn_take _ _ _ (by decide)]
  simp only [tablePathSheet, readXLSXFirstSheetTable_cons _ _ (Nat.pos_of_ne_zero h0)]
  cases hg : guessPrimaryKeyColumn cls ⟨normalizeHeaders rawHeader,
      data.map (padRow · (normalizeHeaders rawHeader).length)⟩ 5 with
  | none => rfl
  | some key =>
    have hm := mem_headers_of_guess hg
    simp only [if_neg (ne_empty_of_mem_normalizeHeaders hm), indexOfHeader_of_mem hm,
      if_neg (show ¬ ((List.indexOf key (normalizeHeaders rawHeader) : Nat) : Int) < 0 by omega), Option.map_some']
    rfl

theorem loadKeyedSheetXLSX_second (cls : Classifiers) (rawHeader : List String) (data : List (List String))
    {key : String} (hk : trimSpace key = key) (hne : key ≠ "") :
    loadKeyedSheetXLSX cls (rawHeader :: data) 0 key false =
      if indexOfHeader (readXLSXFirstSheetTable (rawHeader :: data)).headers key < 0 then
        .error ("Excel文件中必须同时包含" ++ goQuote key ++ "列")
      else .ok (⟨(readXLSXFirstSheetTable (rawHeader :: data)).headers, key,
          (buildKeyRowMap (readXLSXFirstSheetTable (rawHeader :: data))
            (indexOfHeader (readXLSXFirstSheetTable (rawHeader :: data)).headers key).toNat).1⟩,
        (buildKeyRowMap (readXLSXFirstSheetTable (rawHeader :: data))
            (indexOfHeader (readXLSXFirstSheetTable (rawHeader :: data)).headers key).toNat).2) := by
  have hh : (readXLSXFirstSheetTable (rawHeader :: data)).headers = normalizeHeaders rawHeader := rfl
  rw [loadKeyedSheetXLSX_cons, hh]
  simp only [Bool.false_eq_true, if_false, hk, if_neg hne]
  by_cases hidx : indexOfHeader (normalizeHeaders rawHeader) key < 0
  · rw [if_pos hidx, if_pos hidx]
  · rw [if_neg hidx, if_neg hidx]
    have hm : key ∈ normalizeHeaders rawHeader := by
      by_contra hm
      exact hidx (by simp [indexOfHeader, List.indexOf_lt_length, hm])
    rw [readXLSXFirstSheetTable_cons _ _ (List.length_pos_of_mem hm)]
    rfl

theorem compareExportArtifacts_tablePath (cls : Classifiers) (rawHeader1 : List String) (data1 : List (List String))
    (rawHeader2 : List String) (data2 : List (List String)) (file1Path file2Path outPath : String)
    (hp : trimSpace file1Path ≠ "" ∧ trimSpace file2Path ≠ "" ∧ trimSpace outPath ≠ "") :
    (compareExportArtifacts cls (rawHeader1 :: data1) (rawHeader2 :: data2) file1Path file2Path outPath).toOption =
      tablePathArtifacts cls (rawHeader1 :: data1) (rawHeader2 :: data2) := by
  simp only [compareExportArtifacts, if_neg (not_or.2 ⟨hp.1, hp.2.1⟩), if_neg hp.2.2, tablePathArtifacts]
  have e1 := loadKeyedSheetXLSX_first cls rawHeader1 data1
  simp only [tablePathSheet] at e1
  cases h1 : loadKeyedSheetXLSX cls (rawHeader1 :: data1) 5 "" true with
  | error e =>
    rw [h1] at e1
    rw [Option.map_eq_none'.1 e1.symm]
    rfl
  | ok r =>
    rw [h1] at e1
    obtain ⟨key, hg, hr⟩ := Option.map_eq_some'.1 e1.symm
    rw [hg, ← hr, Option.some_bind]
    dsimp only
    have hm : key ∈ normalizeHeaders rawHeader1 := mem_headers_of_guess hg
    have hk : trimSpace key = key := trimSpace_of_mem_normalizeHeaders hm
    have hne := ne_empty_of_mem_normalizeHeaders hm
    rw [loadKeyedSheetXLSX_second cls rawHeader2 data2 hk hne]
    simp only [compareArtifacts, hk, if_neg hne]
    have hm1 : key ∈ (readXLSXFirstSheetTable (rawHeader1 :: data1)).headers := hm
    generalize readXLSXFirstSheetTable (rawHeader1 :: data1) = t1 at hm1 ⊢
    generalize readXLSXFirstSheetTable (rawHeader2 :: data2) = t2
    have hk1 : ¬ indexOfHeader t1.headers key < 0 := by rw [indexOfHeader_of_mem hm1]; omega
    simp only [hk1, false_or]
    by_cases hd1 : (buildKeyRowMap t1 (indexOfHeader t1.headers key).toNat).2.length > 0
    · rw [if_pos hd1]
      split <;> rfl
    · rw [if_neg hd1]
      by_cases hk2 : indexOfHeader t2.headers key < 0
      · simp only [if_pos hk2]; rfl
      · simp only [if_neg hk2, if_neg hd1]

/-- **The streaming reader agrees with the table path on every pair of sheets with a header row.**  On
the first sheet it accepts what the table path accepts, with the same headers, key, map and duplicate
list; and the streaming export builds the artifacts that `CompareArtifacts` builds from the two tables
under the guessed key, and fails where it fails. -/
theorem streaming_agrees_with_tablePath (cls : Classifiers) (rawHeader1 : List String) (data1 : List (List String))
    (rawHeader2 : List String) (data2 : List (List String)) (file1Path file2Path outPath : String)
    (hp : trimSpace file1Path ≠ "" ∧ trimSpace file2Path ≠ "" ∧ trimSpace outPath ≠ "") :
    (loadKeyedSheetXLSX cls (rawHeader1 :: data1) 5 "" true).toOption = tablePathSheet cls (rawHeader1 :: data1) ∧
    (compareExportArtifacts cls (rawHeader1 :: data1) (rawHeader2 :: data2) file1Path file2Path outPath).toOption =
      tablePathArtifacts cls (rawHeader1 :: data1) (rawHeader2 :: data2) :=
  ⟨loadKeyedSheetXLSX_first cls rawHeader1 data1,
    compareExportArtifacts_tablePath cls rawHeader1 data1 rawHeader2 data2 file1Path file2Path outPath hp⟩

/-- Seven data rows under `id, 名称`: both paths guess `id` from the first five and file all seven. -/
theorem streaming_agrees_with_tablePath_seven :
    (loadKeyedSheetXLSX ⟨fun _ => false, fun _ => false⟩ (["id", "名称"] ::
        [["1", "a"], ["2", "b"], ["3", "c"], ["4", "d"], ["5", "e"], ["6", "f"], ["7", "g"]]) 5 "" true).toOption =
      tablePathSheet ⟨fun _ => false, fun _ => false⟩ (["id", "名称"] ::
        [["1", "a"], ["2", "b"], ["3", "c"], ["4", "d"], ["5", "e"], ["6", "f"], ["7", "g"]]) ∧
    (compareExportArtifacts ⟨fun _ => false, fun _ => false⟩ (["id", "名称"] ::
        [["1", "a"], ["2", "b"], ["3", "c"], ["4", "d"], ["5", "e"], ["6", "f"], ["7", "g"]])
        (["名称", "id"] :: [["x", "7"], ["y", "8"]]) "in/1.xlsx" "in/2.xlsx" "out/r.xlsx").toOption =
      tablePathArtifacts ⟨fun _ => false, fun _ => false⟩ (["id", "名称"] ::
        [["1", "a"], ["2", "b"], ["3", "c"], ["4", "d"], ["5", "e"], ["6", "f"], ["7", "g"]])
        (["名称", "id"] :: [["x", "7"], ["y", "8"]]) :=
  streaming_agrees_with_tablePath _ _ _ _ _ _ _ _ ⟨by decide, by decide, by decide⟩

/-- A sheet without any row.  As the first file, the streaming reader accepts it with key `""` and no
rows, while the table path guesses no key; as the second file, the streaming export builds artifacts,
while `CompareArtifacts` finds no key column in it.  The one data cell is integer-like, so no classifier
is read (`compareExportArtifacts_congr`). -/
theorem streaming_accepts_empty_sheet :
    loadKeyedSheetXLSX ⟨fun _ => false, fun _ => false⟩ [] 5 "" true = .ok (⟨[], "", RowMap.empty⟩, []) ∧
    tablePathSheet ⟨fun _ => false, fun _ => false⟩ [] = none ∧
    (compareExportArtifacts ⟨fun _ => false, fun _ => false⟩ [["id"], ["1"]] [] "in/1.xlsx" "in/2.xlsx"
      "out/r.xlsx").toOption.isSome ∧
    tablePathArtifacts ⟨fun _ => false, fun _ => false⟩ [["id"], ["1"]] [] = none :=
  ⟨rfl, rfl, by decide, Option.isNone_iff_eq_none.1 (by decide)⟩

end Guangyang.Excelcmp
