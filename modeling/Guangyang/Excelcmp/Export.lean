import Guangyang.Excelcmp.Artifacts
/-!
# Excelcmp.Export — the Added, Removed and Changed sheets

A sheet is the list of rows the stream writer set, from row 1 on; a cell is its text and its style
id.  `writeSimpleKeyedSheetStream` writes the Added and Removed sheets, `writeDiffSideBySideStream`
the Changed sheet.

The diff writer does not compare the normalised texts of a row one pair at a time: it memoises the
normaliser in a capped cache, compares 64-bit FNV-1a fingerprints first and the texts only when
those agree, records the differing columns in a bit mask of `uint64` words, and clears the mask
through the list of words it dirtied.  All of this writes what the plain per-cell comparison
`plainDiffSheet` writes, for every artifact: a loop invariant over the cache (`CacheOK`), the mask
(`ScanInv`) and the rows written (`DiffInv`) shows it.

Style ids are those `excelize`'s `NewStyle` returns, never negative, so they are `Nat` here; `0` is
the default style, which a plain value gets.
-/
namespace Guangyang.Excelcmp

/-- A written cell: its text and its style id. -/
structure Cell where
  value : String
  style : Nat
  deriving DecidableEq, Repr

/-- A plain value passed to `SetRow`: the default style. -/
def plainCell (v : String) : Cell := ⟨v, 0⟩

/-! ## The Added and Removed sheets -/

/-- The cells a stored row is written as: cut or padded with `""` to `n` cells, each through
`safeCellValue`. -/
def keyedRow (n : Nat) (r : List String) : List Cell :=
  (List.range n).map (fun i => plainCell (if i < r.length then safeCellValue (r.getD i "") else ""))

/-- `writeSimpleKeyedSheetStream`.  `byKey` is never nil here: both callers pass a map the reader
made. -/
def writeSimpleKeyedSheetStream (headers keys : List String) (byKey : RowMap) (emptyMsg : String) :
    List (List Cell) :=
  if headers.length = 0 ∨ keys.length = 0 then [[plainCell emptyMsg]] else
  headers.map plainCell :: keys.filterMap (fun k => (byKey.get? k).map (keyedRow headers.length))

/-- The Added or Removed sheet as the spec words it: the header row, then for each key its stored
row, cut or padded to the header length, blank-looking cells written blank; the placeholder cell
alone when there is no key. -/
def plainKeyedSheet (headers keys : List String) (byKey : RowMap) (emptyMsg : String) : List (List Cell) :=
  if keys = [] then [[plainCell emptyMsg]] else
  headers.map plainCell :: keys.map (fun k =>
    (List.range headers.length).map (fun i => plainCell (safeCellValue (((byKey.get? k).getD []).getD i ""))))

/-! ## The Changed sheet -/

/-- A normalised text and its fingerprint, as the cache holds them. -/
structure NormFP where
  norm : String
  fp : UInt64

/-- `cachedNormalizeFP`: a text of at most 64 bytes is looked up in the cache; on a miss it is
normalised, and stored while the cache holds fewer than `max = 80000` entries.  A longer text is
normalised every time.  Returns the text and fingerprint, and the cache after the call. -/
def cachedNormalizeFP (cache : List (String × NormFP)) (raw : String) :
    (String × UInt64) × List (String × NormFP) :=
  if raw.utf8ByteSize ≤ 64 then
    match cache.lookup raw with
    | some v => ((v.norm, v.fp), cache)
    | none =>
      let n := normalizeScalarForCompare raw
      let fp := fingerprint64 n
      ((n, fp), if cache.length < 80000 then (raw, ⟨n, fp⟩) :: cache else cache)
  else
    let n := normalizeScalarForCompare raw
    ((n, fingerprint64 n), cache)

/-- `diffMaskWords`. -/
def diffMaskWords (nCols : Nat) : Nat :=
  if nCols ≤ 0 then 0 else (nCols + 63) / 64

/-- `diffMaskGet`.  Column indices are never negative, and for them `i >> 6 = i / 64` and
`i & 63 = i % 64`. -/
def diffMaskGet (mask : List (BitVec 64)) (i : Nat) : Bool :=
  if mask.length ≤ i / 64 then false else (mask.getD (i / 64) 0 &&& 1#64 <<< (i % 64)) != 0

/-- The diff mask and its dirty-word list. -/
structure MaskState where
  mask : List (BitVec 64)
  dirty : List Nat

/-- The `setDiff` closure: set bit `i`, and list its word as dirty when it was clear before. -/
def setDiff (st : MaskState) (i : Nat) : MaskState :=
  let w := i / 64
  if st.mask.length ≤ w then st else
  let before := st.mask.getD w 0
  { mask := st.mask.set w (before ||| 1#64 <<< (i % 64)),
    dirty := if before = 0 then st.dirty ++ [w] else st.dirty }

/-- The `resetMask` closure: clear every dirty word, then empty the dirty list. -/
def resetMask (st : MaskState) : MaskState :=
  ⟨st.dirty.foldl (fun m w => m.set w 0) st.mask, []⟩

/-- The cell ordered column `i` reads from a row: `ColIdx[i]`, or `-1` past the index list, and
`""` for an index of `-1` or past the row's end. -/
def cellAt (colIdx : List Int) (row : List String) (i : Nat) : String :=
  let ix := colIdx.getD i (-1)
  if 0 ≤ ix ∧ ix < row.length then row.getD ix.toNat "" else ""

/-- The state of one key's scan: the cache, the mask and `hasDiff`. -/
structure ScanState where
  cache : List (String × NormFP)
  mask : MaskState
  hasDiff : Bool

/-- One pass of the scan loop: normalise both cells through the cache, and on a difference of the
fingerprints, or of the texts when those agree, set the column's bit. -/
def scanColumn (art : Artifacts) (left right : List String) (st : ScanState) (i : Nat) : ScanState :=
  let a := cachedNormalizeFP st.cache (cellAt art.colIdx1 left i)
  let b := cachedNormalizeFP a.2 (cellAt art.colIdx2 right i)
  if a.1.2 ≠ b.1.2 ∨ a.1.1 ≠ b.1.1 then ⟨b.2, setDiff st.mask i, true⟩ else { st with cache := b.2 }

/-- The file name a header cell shows: the trimmed name, or `default` when it is blank. -/
def shownName (name default : String) : String :=
  if trimSpace name = "" then default else trimSpace name

/-- The `writeHeader` closure's row: the key, then each column twice, tagged with each file name. -/
def diffHeader (art : Artifacts) (fn1 fn2 : String) : List Cell :=
  plainCell art.key :: art.orderedCols.flatMap
    (fun c => [plainCell (c ++ "（" ++ fn1 ++ "）"), plainCell (c ++ "（" ++ fn2 ++ "）")])

/-- The cells after the key in a written diff row: both cells of each column through
`safeCellValue`, in the red style when the column's bit is set and the style exists. -/
def diffRowCells (art : Artifacts) (left right : List String) (mask : List (BitVec 64))
    (redStyle : Nat) : List Cell :=
  (List.range art.orderedCols.length).flatMap (fun i =>
    let style := if diffMaskGet mask i ∧ 0 < redStyle then redStyle else 0
    [⟨safeCellValue (cellAt art.colIdx1 left i), style⟩, ⟨safeCellValue (cellAt art.colIdx2 right i), style⟩])

/-- The state of the key loop: the cache, the mask, `firstWritten`, and the rows written. -/
structure DiffState where
  cache : List (String × NormFP)
  mask : MaskState
  firstWritten : Bool
  rows : List (List Cell)

/-- One pass of the key loop: scan the key's columns; a key with no difference only clears the
mask; otherwise the header goes first if not yet written, then the key's row, then the mask is
cleared.  A key missing from a map reads Go's nil row. -/
def diffKeyStep (art : Artifacts) (header : List Cell) (redStyle : Nat) (st : DiffState) (k : String) :
    DiffState :=
  let left := (art.leftByKey.get? k).getD []
  let right := (art.rightByKey.get? k).getD []
  let sc := (List.range art.orderedCols.length).foldl (scanColumn art left right) ⟨st.cache, st.mask, false⟩
  if !sc.hasDiff then { st with cache := sc.cache, mask := resetMask sc.mask } else
  { cache := sc.cache, mask := resetMask sc.mask, firstWritten := true,
    rows := (if st.firstWritten then st.rows else st.rows ++ [header]) ++
      [plainCell (safeCellValue k) :: diffRowCells art left right sc.mask.mask redStyle] }

/-- `writeDiffSideBySideStream`. -/
def writeDiffSideBySideStream (art : Artifacts) (file1Name file2Name : String) (redStyle : Nat) :
    List (List Cell) :=
  if art.commonKeys.length = 0 then [[plainCell "无变动项目"]] else
  let header := diffHeader art (shownName file1Name "文件1") (shownName file2Name "文件2")
  let mask : MaskState := ⟨List.replicate (diffMaskWords art.orderedCols.length) 0, []⟩
  let st := art.commonKeys.foldl (diffKeyStep art header redStyle) ⟨[], mask, false, []⟩
  if st.firstWritten then st.rows else st.rows ++ [[plainCell "无变动项目"]]

/-! ## The plain comparison -/

/-- Column `i` of key `k` differs: its normalised left and right cells are unequal. -/
def columnDiffers (art : Artifacts) (k : String) (i : Nat) : Bool :=
  normalizeScalarForCompare (cellAt art.colIdx1 ((art.leftByKey.get? k).getD []) i) !=
    normalizeScalarForCompare (cellAt art.colIdx2 ((art.rightByKey.get? k).getD []) i)

/-- Some ordered column of key `k` differs. -/
def keyChanged (art : Artifacts) (k : String) : Bool :=
  (List.range art.orderedCols.length).any (columnDiffers art k)

/-- The row of a changed key in the plain comparison: the key, then the left and right cells of
every column, the pair in the red style iff the column differs; `render` is how a cell's text is
written. -/
def plainDiffRow (render : String → String) (art : Artifacts) (redStyle : Nat) (k : String) : List Cell :=
  plainCell (render k) :: (List.range art.orderedCols.length).flatMap (fun i =>
    let style := if columnDiffers art k i then redStyle else 0
    [⟨render (cellAt art.colIdx1 ((art.leftByKey.get? k).getD []) i), style⟩,
      ⟨render (cellAt art.colIdx2 ((art.rightByKey.get? k).getD []) i), style⟩])

/-- The Changed sheet as a plain per-cell comparison: a header row and one row per changed common
key, in order, or the placeholder cell alone when no key changed. -/
def plainDiffSheet (render : String → String) (art : Artifacts) (file1Name file2Name : String)
    (redStyle : Nat) : List (List Cell) :=
  match art.commonKeys.filter (keyChanged art) with
  | [] => [[plainCell "无变动项目"]]
  | changed => diffHeader art (shownName file1Name "文件1") (shownName file2Name "文件2") ::
      changed.map (plainDiffRow render art redStyle)

/-! ## The cache -/

/-- Every cached entry holds its key's normalised text and that text's fingerprint. -/
def CacheOK (cache : List (String × NormFP)) : Prop :=
  ∀ e ∈ cache, e.2 = ⟨normalizeScalarForCompare e.1, fingerprint64 (normalizeScalarForCompare e.1)⟩

theorem cachedNormalizeFP_spec {cache : List (String × NormFP)} (hc : CacheOK cache) (raw : String) :
    (cachedNormalizeFP cache raw).1 = (normalizeScalarForCompare raw, fingerprint64 (normalizeScalarForCompare raw)) ∧
      CacheOK (cachedNormalizeFP cache raw).2 := by
  unfold cachedNormalizeFP
  split
  · split
    · rename_i v hv
      have hv' := hc _ (mem_of_lookup_eq_some hv)
      simp only at hv'
      exact ⟨by rw [hv'], hc⟩
    · refine ⟨rfl, ?_⟩
      split
      · intro e he
        rcases List.mem_cons.1 he with rfl | he
        · rfl
        · exact hc e he
      · exact hc
  · exact ⟨rfl, hc⟩

/-! ## The mask -/

/-- A set word is a dirty one. -/
def DirtyOK (st : MaskState) : Prop :=
  ∀ w, st.mask.getD w 0 ≠ 0 → w ∈ st.dirty

/-- A clean mask: `words` words, all clear, none dirty. -/
structure Clean (st : MaskState) (words : Nat) : Prop where
  length : st.mask.length = words
  dirty : st.dirty = []
  zero : ∀ w, st.mask.getD w 0 = 0

theorem diffMaskGet_eq (mask : List (BitVec 64)) (i : Nat) :
    diffMaskGet mask i = (mask.getD (i / 64) 0).getLsbD (i % 64) := by
  unfold diffMaskGet
  split
  · rename_i h; simp [List.getD_eq_getElem?_getD, List.getElem?_eq_none h]
  · have hb : i % 64 < 64 := Nat.mod_lt i (by decide)
    rw [show 1#64 <<< (i % 64) = BitVec.twoPow 64 (i % 64) from rfl, BitVec.and_twoPow]
    have nonzero : BitVec.twoPow 64 (i % 64) ≠ 0#64 := fun zero => by
      simpa [hb] using congrArg (fun bits => bits.getLsbD (i % 64)) zero
    cases (mask.getD (i / 64) 0).getLsbD (i % 64) <;> simp [nonzero]

theorem Clean.diffMaskGet {st : MaskState} {words : Nat} (h : Clean st words) (i : Nat) :
    diffMaskGet st.mask i = false := by
  rw [diffMaskGet_eq, h.zero]; simp

theorem Clean.dirtyOK {st : MaskState} {words : Nat} (h : Clean st words) : DirtyOK st :=
  fun w hw => absurd (h.zero w) hw

theorem setDiff_length (st : MaskState) (i : Nat) : (setDiff st i).mask.length = st.mask.length := by
  dsimp only [setDiff]; split <;> simp

theorem setDiff_bit {st : MaskState} {i : Nat} (h : i / 64 < st.mask.length) (t : Nat) :
    diffMaskGet (setDiff st i).mask t = (diffMaskGet st.mask t || decide (t = i)) := by
  simp only [setDiff, if_neg (Nat.not_le.2 h), diffMaskGet_eq, List.getD_eq_getElem?_getD]
  by_cases hw : i / 64 = t / 64
  · have same : t % 64 = i % 64 ↔ t = i := by omega
    rw [← hw, List.getElem?_set_self']
    simp only [List.getElem?_eq_getElem h, Option.map_eq_map, Option.map_some', Function.const_apply,
      Option.getD_some, BitVec.getLsbD_or]
    rw [show 1#64 <<< (i % 64) = BitVec.twoPow 64 (i % 64) from rfl, BitVec.getLsbD_twoPow]
    simp [Nat.mod_lt _ (by decide : 0 < 64), ← same, eq_comm]
  · have ht : t ≠ i := fun e => hw (e ▸ rfl)
    simp [List.getElem?_set_ne hw, ht]

theorem setDiff_dirtyOK {st : MaskState} (h : DirtyOK st) (i : Nat) : DirtyOK (setDiff st i) := by
  dsimp only [setDiff]
  split
  · exact h
  · intro w hw
    simp only [List.getD_eq_getElem?_getD] at hw ⊢
    by_cases hwi : i / 64 = w
    · subst hwi
      split
      · exact List.mem_append_right _ (List.mem_singleton_self _)
      · exact h _ (by simpa [List.getD_eq_getElem?_getD] using ‹_›)
    · rw [List.getElem?_set_ne hwi] at hw
      have := h w (by simpa [List.getD_eq_getElem?_getD] using hw)
      split
      · exact List.mem_append_left _ this
      · exact this

theorem foldl_set_zero_getD : ∀ (dirty : List Nat) (mask : List (BitVec 64)) (w : Nat),
    (dirty.foldl (fun m w => m.set w 0) mask).getD w 0 = if w ∈ dirty then 0 else mask.getD w 0
  | [], _, _ => by simp
  | d :: ds, mask, w => by
    rw [List.foldl_cons, foldl_set_zero_getD ds]
    by_cases hd : d = w
    · subst hd
      simp only [List.mem_cons, true_or, if_true, List.getD_eq_getElem?_getD, List.getElem?_set_self']
      split <;> cases mask[d]? <;> rfl
    · simp [List.getD_eq_getElem?_getD, List.getElem?_set_ne hd, Ne.symm hd]

theorem length_foldl_set_zero : ∀ (dirty : List Nat) (mask : List (BitVec 64)),
    (dirty.foldl (fun m w => m.set w 0) mask).length = mask.length
  | [], _ => rfl
  | d :: ds, mask => by rw [List.foldl_cons, length_foldl_set_zero ds, List.length_set]

/-- Clearing the dirty words of a mask whose set words are all dirty leaves it clean. -/
theorem resetMask_clean {st : MaskState} (h : DirtyOK st) : Clean (resetMask st) st.mask.length := by
  refine ⟨length_foldl_set_zero _ _, rfl, fun w => ?_⟩
  simp only [resetMask, foldl_set_zero_getD]
  split
  · rfl
  · exact Classical.byContradiction (fun hw => ‹w ∉ st.dirty› (h w hw))

/-! ## One key's scan -/

/-- The scan of key `k` after its first `j` columns: the cache is sound, the mask has its words, its
set words are dirty, its bits are exactly the differing columns below `j`, and `hasDiff` says
whether there is one. -/
structure ScanInv (art : Artifacts) (k : String) (j : Nat) (st : ScanState) : Prop where
  cache : CacheOK st.cache
  length : st.mask.mask.length = diffMaskWords art.orderedCols.length
  dirty : DirtyOK st.mask
  bits : ∀ t, diffMaskGet st.mask.mask t = (decide (t < j) && columnDiffers art k t)
  hasDiff : st.hasDiff = (List.range j).any (columnDiffers art k)

/-- Fingerprints are a function of the text, so the fingerprint-then-text test is the text test. -/
theorem fingerprint_or_text_ne (n1 n2 : String) :
    (fingerprint64 n1 ≠ fingerprint64 n2 ∨ n1 ≠ n2) ↔ n1 ≠ n2 :=
  ⟨fun h => h.elim (fun hf e => hf (e ▸ rfl)) id, Or.inr⟩

theorem scanColumn_inv {art : Artifacts} {k : String} {j : Nat} {st : ScanState}
    (h : ScanInv art k j st) (hj : j < art.orderedCols.length) :
    ScanInv art k (j + 1)
      (scanColumn art ((art.leftByKey.get? k).getD []) ((art.rightByKey.get? k).getD []) st j) := by
  obtain ⟨ha, hca⟩ := cachedNormalizeFP_spec h.cache (cellAt art.colIdx1 ((art.leftByKey.get? k).getD []) j)
  obtain ⟨hb, hcb⟩ := cachedNormalizeFP_spec hca (cellAt art.colIdx2 ((art.rightByKey.get? k).getD []) j)
  have hw : j / 64 < st.mask.mask.length := by
    rw [h.length, diffMaskWords, if_neg (by omega)]; omega
  have hrange : (List.range (j + 1)).any (columnDiffers art k) =
      ((List.range j).any (columnDiffers art k) || columnDiffers art k j) := by
    simp [List.range_succ, List.any_append]
  have hbit : ∀ t, (decide (t < j + 1) && columnDiffers art k t) =
      ((decide (t < j) && columnDiffers art k t) || (decide (t = j) && columnDiffers art k j)) := by
    intro t
    by_cases htj : t = j
    · subst htj; simp
    · have : t < j + 1 ↔ t < j := by omega
      simp [htj, this]
  unfold scanColumn
  simp only [ha, hb, fingerprint_or_text_ne]
  split_ifs with hne
  · have hd : columnDiffers art k j = true := bne_iff_ne.2 hne
    refine ⟨hcb, (setDiff_length _ _).trans h.length, setDiff_dirtyOK h.dirty j, fun t => ?_, by simp [hrange, hd]⟩
    rw [setDiff_bit hw, h.bits, hbit, hd, Bool.and_true]
  · have hd : columnDiffers art k j = false := by simpa [columnDiffers] using hne
    refine ⟨hcb, h.length, h.dirty, fun t => ?_, by simp [hrange, hd, h.hasDiff]⟩
    rw [h.bits, hbit, hd, Bool.and_false, Bool.or_false]

/-- The whole scan of a key, from a sound cache and a clean mask. -/
theorem scan_inv {art : Artifacts} {k : String} {cache : List (String × NormFP)} {mask : MaskState}
    (hc : CacheOK cache) (hm : Clean mask (diffMaskWords art.orderedCols.length)) :
    ∀ j ≤ art.orderedCols.length, ScanInv art k j
      ((List.range j).foldl (scanColumn art ((art.leftByKey.get? k).getD []) ((art.rightByKey.get? k).getD []))
        ⟨cache, mask, false⟩)
  | 0, _ => ⟨hc, hm.length, hm.dirtyOK, fun t => by simp [hm.diffMaskGet], rfl⟩
  | j + 1, hj => by
    rw [List.range_succ, List.foldl_append, List.foldl_cons, List.foldl_nil]
    exact scanColumn_inv (scan_inv hc hm j (by omega)) (by omega)

/-! ## The key loop -/

/-- After a whole scan the row written for the key is the plain comparison's row. -/
theorem diffRow_eq_plainDiffRow {art : Artifacts} {k : String} {sc : ScanState}
    (h : ScanInv art k art.orderedCols.length sc) (redStyle : Nat) :
    plainCell (safeCellValue k) ::
        diffRowCells art ((art.leftByKey.get? k).getD []) ((art.rightByKey.get? k).getD []) sc.mask.mask redStyle =
      plainDiffRow safeCellValue art redStyle k := by
  simp only [diffRowCells, plainDiffRow, List.cons.injEq, true_and]
  refine List.flatMap_congr (fun i hi => ?_)
  rw [h.bits i, decide_eq_true (List.mem_range.1 hi), Bool.true_and]
  rcases Nat.eq_zero_or_pos redStyle with hr | hr
  · subst hr; simp
  · simp [hr]

/-- One key of the loop, from a sound cache and a clean mask: both stay so, and the rows grow by the
plain comparison's row (after the header, if none was written yet) exactly when the key changed. -/
theorem diffKeyStep_spec (art : Artifacts) (header : List Cell) (redStyle : Nat) {st : DiffState}
    (k : String) (hc : CacheOK st.cache) (hm : Clean st.mask (diffMaskWords art.orderedCols.length)) :
    let st' := diffKeyStep art header redStyle st k
    CacheOK st'.cache ∧ Clean st'.mask (diffMaskWords art.orderedCols.length) ∧
      st'.firstWritten = (st.firstWritten || keyChanged art k) ∧
      st'.rows = st.rows ++ (if keyChanged art k then
        (if st.firstWritten then [] else [header]) ++ [plainDiffRow safeCellValue art redStyle k] else []) := by
  unfold diffKeyStep
  dsimp only
  set sc := (List.range art.orderedCols.length).foldl
    (scanColumn art ((art.leftByKey.get? k).getD []) ((art.rightByKey.get? k).getD [])) ⟨st.cache, st.mask, false⟩
  have hs : ScanInv art k art.orderedCols.length sc := scan_inv hc hm _ le_rfl
  have hclean : Clean (resetMask sc.mask) (diffMaskWords art.orderedCols.length) :=
    hs.length ▸ resetMask_clean hs.dirty
  have hch : sc.hasDiff = keyChanged art k := hs.hasDiff
  cases hk : keyChanged art k
  · rw [hk] at hch
    simp only [hch, Bool.not_false, if_true]
    exact ⟨hs.cache, hclean, by simp, by simp⟩
  · rw [hk] at hch
    simp only [hch, Bool.not_true, Bool.false_eq_true, if_false, diffRow_eq_plainDiffRow hs redStyle]
    exact ⟨hs.cache, hclean, by simp, by cases st.firstWritten <;> simp⟩

/-- What the key loop has written once the changed keys so far are `changed`: nothing, or the
header and their rows. -/
def writtenRows (header : List Cell) (row : String → List Cell) : List String → List (List Cell)
  | [] => []
  | k :: ks => header :: (k :: ks).map row

theorem writtenRows_append (header : List Cell) (row : String → List Cell) (xs : List String) (k : String) :
    writtenRows header row (xs ++ [k]) = writtenRows header row xs ++ ((if xs = [] then [header] else []) ++ [row k]) := by
  cases xs <;> simp [writtenRows]

/-- The key loop after the keys `done`. -/
structure DiffInv (art : Artifacts) (header : List Cell) (redStyle : Nat) (done : List String)
    (st : DiffState) : Prop where
  cache : CacheOK st.cache
  clean : Clean st.mask (diffMaskWords art.orderedCols.length)
  firstWritten : st.firstWritten = done.any (keyChanged art)
  rows : st.rows = writtenRows header (plainDiffRow safeCellValue art redStyle) (done.filter (keyChanged art))

theorem filter_eq_nil_iff_any {p : String → Bool} {l : List String} : l.filter p = [] ↔ l.any p = false := by
  simp [List.filter_eq_nil_iff]

theorem diffKeyStep_inv {art : Artifacts} {header : List Cell} {redStyle : Nat} {done : List String}
    {st : DiffState} (h : DiffInv art header redStyle done st) (k : String) :
    DiffInv art header redStyle (done ++ [k]) (diffKeyStep art header redStyle st k) := by
  obtain ⟨hc, hm, hf, hr⟩ := diffKeyStep_spec art header redStyle k h.cache h.clean
  refine ⟨hc, hm, by rw [hf, h.firstWritten, List.any_append]; simp, ?_⟩
  rw [hr, h.rows, List.filter_append]
  cases hk : keyChanged art k
  · simp [hk]
  · have hnil : (done.filter (keyChanged art) = []) = (st.firstWritten = false) := by
      rw [h.firstWritten, filter_eq_nil_iff_any]
    simp only [if_true, List.filter_cons, hk, List.filter_nil, writtenRows_append, hnil]
    cases st.firstWritten <;> simp

theorem foldl_diffKeyStep_inv (art : Artifacts) (header : List Cell) (redStyle : Nat) :
    ∀ (ks done : List String) (st : DiffState), DiffInv art header redStyle done st →
      DiffInv art header redStyle (done ++ ks) (ks.foldl (diffKeyStep art header redStyle) st)
  | [], done, st, h => by simpa using h
  | k :: ks, done, st, h => by
    simpa using foldl_diffKeyStep_inv art header redStyle ks (done ++ [k]) _ (diffKeyStep_inv h k)

theorem clean_replicate (words : Nat) : Clean ⟨List.replicate words 0, []⟩ words :=
  ⟨List.length_replicate _ _, rfl, fun w => by
    simp only [List.getD_eq_getElem?_getD, List.getElem?_replicate]; split <;> rfl⟩

/-- **The diff writer writes the plain per-cell comparison.**  For every artifact, file names and
style: the cache, the fingerprints, the bit mask and its dirty-word reset change nothing in the
Changed sheet, which is the header and one row per common key with a differing column, in order,
each cell written through `safeCellValue`, or the placeholder alone. -/
theorem writeDiffSideBySideStream_eq_plain (art : Artifacts) (file1Name file2Name : String) (redStyle : Nat) :
    writeDiffSideBySideStream art file1Name file2Name redStyle =
      plainDiffSheet safeCellValue art file1Name file2Name redStyle := by
  unfold writeDiffSideBySideStream plainDiffSheet
  split
  · rename_i h0
    rw [List.length_eq_zero.1 h0]; rfl
  · dsimp only
    have h := foldl_diffKeyStep_inv art
      (diffHeader art (shownName file1Name "文件1") (shownName file2Name "文件2")) redStyle art.commonKeys []
      ⟨[], ⟨List.replicate (diffMaskWords art.orderedCols.length) 0, []⟩, false, []⟩
      ⟨fun _ h => absurd h (List.not_mem_nil _), clean_replicate _, rfl, rfl⟩
    rw [List.nil_append] at h
    rw [h.firstWritten, h.rows]
    cases hf : art.commonKeys.filter (keyChanged art) with
    | nil => simp [filter_eq_nil_iff_any.1 hf, writtenRows]
    | cons c cs =>
      have : art.commonKeys.any (keyChanged art) = true := by
        cases ha : art.commonKeys.any (keyChanged art)
        · rw [← filter_eq_nil_iff_any, hf] at ha; cases ha
        · rfl
      simp [this, writtenRows]

/-- A blank-looking cell is written blank, not as it is stored. -/
theorem blank_cell_written_blank :
    ∃ art, compareArtifactsFromMaps ["id", "A"] ["id", "A"] ⟨[("1", ["1", " "])], by decide⟩
        ⟨[("1", ["1", "x"])], by decide⟩ "id" = .ok art ∧
      writeDiffSideBySideStream art "a.xlsx" "b.xlsx" 1 ≠ plainDiffSheet id art "a.xlsx" "b.xlsx" 1 :=
  ⟨_, compareArtifactsFromMaps_ok _ _ _ _ (by decide), by decide⟩

/-! ## The workbook's sheets -/

/-- A stored row as the keyed sheet writes it: the padding cells are blank either way. -/
theorem keyedRow_eq (n : Nat) (r : List String) :
    keyedRow n r = (List.range n).map (fun i => plainCell (safeCellValue (r.getD i ""))) := by
  refine List.map_congr_left (fun i _ => ?_)
  split
  · rfl
  · rename_i hi
    rw [List.getD_eq_getElem?_getD, List.getElem?_eq_none (Nat.not_lt.1 hi)]; rfl

/-- **The Added and Removed sheets.**  For keys all stored in the map: the placeholder when the header
row is empty, the spec's sheet otherwise. -/
theorem writeSimpleKeyedSheetStream_eq (headers keys : List String) (byKey : RowMap) (emptyMsg : String)
    (hk : ∀ k ∈ keys, k ∈ byKey.keys) :
    writeSimpleKeyedSheetStream headers keys byKey emptyMsg =
      if headers = [] then [[plainCell emptyMsg]] else plainKeyedSheet headers keys byKey emptyMsg := by
  unfold writeSimpleKeyedSheetStream plainKeyedSheet
  by_cases hh : headers = []
  · simp [hh]
  by_cases hks : keys = []
  · simp [hks]
  simp only [hh, hks, List.length_eq_zero, or_self, if_false, List.cons.injEq, true_and]
  rw [← List.filterMap_eq_map]
  refine List.filterMap_congr (fun k hm => ?_)
  obtain ⟨r, hr⟩ := Option.isSome_iff_exists.1 ((byKey.get?_isSome_iff k).2 (hk k hm))
  simp [hr, keyedRow_eq]

/-- The three sheets `GenerateCompareExportXLSX` writes from the artifacts: Added, Removed, Changed. -/
def exportSheets (art : Artifacts) (file1Name file2Name : String) (redStyle : Nat) : List (List (List Cell)) :=
  [writeSimpleKeyedSheetStream art.incHeaders art.incKeys art.rightByKey "无增加项",
    writeSimpleKeyedSheetStream art.redHeaders art.reducedKeys art.leftByKey "无减少项",
    writeDiffSideBySideStream art file1Name file2Name redStyle]

theorem writeSimpleKeyedSheetStream_congr (headers keys : List String) {m m' : RowMap}
    (h : m'.get? = m.get?) (emptyMsg : String) :
    writeSimpleKeyedSheetStream headers keys m' emptyMsg = writeSimpleKeyedSheetStream headers keys m emptyMsg := by
  simp only [writeSimpleKeyedSheetStream, h]

/-- The diff writer reads the maps only through lookups. -/
theorem writeDiffSideBySideStream_congr (art : Artifacts) {m1 m2 : RowMap} (h1 : m1.get? = art.leftByKey.get?)
    (h2 : m2.get? = art.rightByKey.get?) (file1Name file2Name : String) (redStyle : Nat) :
    writeDiffSideBySideStream { art with leftByKey := m1, rightByKey := m2 } file1Name file2Name redStyle =
      writeDiffSideBySideStream art file1Name file2Name redStyle := by
  have hstep : diffKeyStep { art with leftByKey := m1, rightByKey := m2 } = diffKeyStep art := by
    funext header redStyle st k
    simp only [diffKeyStep, h1, h2]
    rfl
  simp only [writeDiffSideBySideStream, hstep]
  rfl

/-- One artifact's key lists, its Added and Removed sheets, and that another iteration order of the
same maps gives the same key lists and the same three sheets. -/
structure KeyedExport (headers1 headers2 : List String) (m1 m2 : RowMap) (key : String) (art : Artifacts) :
    Prop where
  split : KeySplit art m1 m2
  added : writeSimpleKeyedSheetStream art.incHeaders art.incKeys art.rightByKey "无增加项" =
    if headers2 = [] then [[plainCell "无增加项"]] else plainKeyedSheet headers2 art.incKeys m2 "无增加项"
  removed : writeSimpleKeyedSheetStream art.redHeaders art.reducedKeys art.leftByKey "无减少项" =
    if headers1 = [] then [[plainCell "无减少项"]] else plainKeyedSheet headers1 art.reducedKeys m1 "无减少项"
  orderFree : ∀ m1' m2' : RowMap, m1.entries.Perm m1'.entries → m2.entries.Perm m2'.entries →
    ∃ art', compareArtifactsFromMaps headers1 headers2 m1' m2' key = .ok art' ∧
      art'.reducedKeys = art.reducedKeys ∧ art'.incKeys = art.incKeys ∧ art'.commonKeys = art.commonKeys ∧
      ∀ file1Name file2Name redStyle,
        exportSheets art' file1Name file2Name redStyle = exportSheets art file1Name file2Name redStyle

/-- **The key sets and the Added and Removed sheets, for every iteration order.**  A non-blank key
gives artifacts whose three key lists are strictly ascending and hold the keys of `m1` only, of `m2`
only, and of both; whose Added (Removed) sheet is the placeholder when `headers2` (`headers1`) or the
key list is empty, and otherwise the header row and one stored row per key, in order, cut or padded
to the header length with blank-looking cells blank; and any other iteration order of the two maps
gives the same key lists and the same three sheets. -/
theorem keyed_sheets_partition (headers1 headers2 : List String) (m1 m2 : RowMap) {key : String}
    (hk : trimSpace key ≠ "") :
    ∃ art, compareArtifactsFromMaps headers1 headers2 m1 m2 key = .ok art ∧
      KeyedExport headers1 headers2 m1 m2 key art := by
  obtain ⟨art, hok, hh1, hh2, hl, hr⟩ : ∃ art, compareArtifactsFromMaps headers1 headers2 m1 m2 key = .ok art ∧
      art.redHeaders = headers1 ∧ art.incHeaders = headers2 ∧ art.leftByKey = m1 ∧ art.rightByKey = m2 :=
    ⟨_, compareArtifactsFromMaps_ok _ _ _ _ hk, rfl, rfl, rfl, rfl⟩
  have hs := keySplit_of_ok hok
  refine ⟨art, hok, hs, ?_, ?_, fun m1' m2' h1 h2 => ?_⟩
  · rw [hh2, hr]; exact writeSimpleKeyedSheetStream_eq _ _ _ _ (fun k h => ((hs.mem_inc k).1 h).1)
  · rw [hh1, hl]; exact writeSimpleKeyedSheetStream_eq _ _ _ _ (fun k h => ((hs.mem_reduced k).1 h).1)
  rw [compareArtifactsFromMaps_perm key h1 h2, hok]
  have g1 : m1'.get? = art.leftByKey.get? := hl ▸ (funext (RowMap.get?_eq_of_perm h1)).symm
  have g2 : m2'.get? = art.rightByKey.get? := hr ▸ (funext (RowMap.get?_eq_of_perm h2)).symm
  refine ⟨_, rfl, rfl, rfl, rfl, fun file1Name file2Name redStyle => ?_⟩
  simp only [exportSheets, writeSimpleKeyedSheetStream_congr _ _ g1, writeSimpleKeyedSheetStream_congr _ _ g2,
    writeDiffSideBySideStream_congr art g1 g2]

theorem keyed_sheets_partition_two_files : trimSpace "id" ≠ "" ∧
    ∃ art, compareArtifactsFromMaps ["id", "A"] ["id", "A"] ⟨[("2", ["2", "x"]), ("1", ["1", "y"])], by decide⟩
        ⟨[("3", ["3", "z"]), ("2", ["2", "w"])], by decide⟩ "id" = .ok art ∧
      KeyedExport ["id", "A"] ["id", "A"] ⟨[("2", ["2", "x"]), ("1", ["1", "y"])], by decide⟩
        ⟨[("3", ["3", "z"]), ("2", ["2", "w"])], by decide⟩ "id" art :=
  ⟨by decide, keyed_sheets_partition _ _ _ _ (by decide)⟩

/-- An empty header row hides every added key behind the placeholder. -/
theorem empty_header_hides_added_keys :
    ∃ art, compareArtifactsFromMaps ["id"] [] RowMap.empty ⟨[("k", ["v"])], by decide⟩ "id" = .ok art ∧
      art.incKeys = ["k"] ∧
      writeSimpleKeyedSheetStream art.incHeaders art.incKeys art.rightByKey "无增加项" = [[plainCell "无增加项"]] ∧
      plainKeyedSheet art.incHeaders art.incKeys art.rightByKey "无增加项" ≠ [[plainCell "无增加项"]] :=
  ⟨_, compareArtifactsFromMaps_ok _ _ _ _ (by decide), by decide, by decide, by decide⟩

end Guangyang.Excelcmp
