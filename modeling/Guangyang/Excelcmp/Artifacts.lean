import Guangyang.Excelcmp.Normalize
import Mathlib.Data.List.Sort
import Mathlib.Data.String.Basic
import Mathlib.Logic.Function.Basic
/-!
# Excelcmp.Artifacts — the key sets and the column mapping

`compareArtifactsFromMaps` splits the keys of the two key→row maps into the file-1-only, file-2-only
and common sets, sorts each, and aligns the columns of the two header rows by name.

A Go map is a `RowMap`: its entries in the order one run iterates them, keys distinct.  Go
randomises that order on every run, so every result below holds for every order.  `sort.Strings`
is insertion sort here: on a total order there is one sorted permutation of a list, so every sort
algorithm returns it (`sortStrings_eq_of_perm`).  `String`'s `<` compares code points; UTF-8 encodes
code points in an order-preserving way, so this is Go's byte order.
-/
namespace Guangyang.Excelcmp

/-! ## Go maps -/

theorem lookup_cons_of_ne {β : Type} {k a : String} {b : β} {l : List (String × β)} (h : k ≠ a) :
    ((a, b) :: l).lookup k = l.lookup k := by
  simp [List.lookup_cons, beq_eq_false_iff_ne.2 h]

theorem lookup_isSome_iff {β : Type} (k : String) :
    ∀ l : List (String × β), (l.lookup k).isSome ↔ k ∈ l.map Prod.fst
  | [] => by simp
  | (a, b) :: l => by
    by_cases h : k = a
    · subst h; simp
    · rw [lookup_cons_of_ne h, lookup_isSome_iff k l]; simp [h]

theorem mem_of_lookup_eq_some {β : Type} {k : String} {v : β} :
    ∀ {l : List (String × β)}, l.lookup k = some v → (k, v) ∈ l
  | [], h => by simp at h
  | (a, b) :: l, h => by
    by_cases hk : k = a
    · subst hk; simp only [List.lookup_cons_self, Option.some.injEq] at h; simp [h]
    · rw [lookup_cons_of_ne hk] at h
      exact List.mem_cons_of_mem _ (mem_of_lookup_eq_some h)

theorem lookup_eq_some_of_mem {β : Type} {k : String} {v : β} :
    ∀ {l : List (String × β)}, (l.map Prod.fst).Nodup → (k, v) ∈ l → l.lookup k = some v
  | [], _, h => by simp at h
  | (a, b) :: l, hn, h => by
    simp only [List.map_cons, List.nodup_cons] at hn
    rcases List.mem_cons.1 h with h | h
    · simp only [Prod.mk.injEq] at h; simp [h]
    · have hka : k ≠ a := fun e => hn.1 (e ▸ List.mem_map_of_mem Prod.fst h)
      rw [lookup_cons_of_ne hka]
      exact lookup_eq_some_of_mem hn.2 h

/-- A Go `map[string][]string`, as one of its iteration orders: the entries in that order, keys
distinct. -/
structure RowMap where
  entries : List (String × List String)
  nodup : (entries.map Prod.fst).Nodup

namespace RowMap

def empty : RowMap := ⟨[], List.nodup_nil⟩

def keys (m : RowMap) : List String := m.entries.map Prod.fst

/-- `m[k]` with its `ok`. -/
def get? (m : RowMap) (k : String) : Option (List String) := m.entries.lookup k

theorem get?_isSome_iff (m : RowMap) (k : String) : (m.get? k).isSome ↔ k ∈ m.keys :=
  lookup_isSome_iff k m.entries

theorem get?_eq_none_iff (m : RowMap) (k : String) : m.get? k = none ↔ k ∉ m.keys := by
  rw [← get?_isSome_iff]; cases m.get? k <;> simp

/-- Adding a key that is not yet there; the new entry comes last in this iteration order. -/
def insertNew (m : RowMap) (k : String) (row : List String) (h : m.get? k = none) : RowMap :=
  ⟨m.entries ++ [(k, row)], by
    have hk : k ∉ m.keys := fun hm => by simpa [h] using (get?_isSome_iff m k).2 hm
    rw [List.map_append]
    exact List.nodup_append.2 ⟨m.nodup, List.nodup_singleton k, by simpa [keys] using hk⟩⟩

theorem lookup_append_singleton {β : Type} (k k' : String) (v : β) :
    ∀ l : List (String × β), (l ++ [(k, v)]).lookup k' = (l.lookup k').or (if k' = k then some v else none)
  | [] => by by_cases h : k' = k <;> simp [h, List.lookup_cons, beq_eq_false_iff_ne.2]
  | (a, b) :: l => by
    by_cases h : k' = a
    · subst h; simp
    · rw [List.cons_append, lookup_cons_of_ne h, lookup_cons_of_ne h, lookup_append_singleton k k' v l]

theorem get?_insertNew (m : RowMap) {k : String} (row : List String) (h : m.get? k = none) (k' : String) :
    (m.insertNew k row h).get? k' = if k' = k then some row else m.get? k' := by
  rw [insertNew, get?, lookup_append_singleton]
  by_cases hk : k' = k
  · subst hk; simp only [get?] at h; simp [h]
  · simp [hk, get?]

/-- Two iteration orders of one map answer every lookup alike. -/
theorem get?_eq_of_perm {m m' : RowMap} (h : m.entries.Perm m'.entries) (k : String) :
    m.get? k = m'.get? k := by
  cases hg : m.get? k with
  | some v =>
    exact (lookup_eq_some_of_mem m'.nodup (h.subset (mem_of_lookup_eq_some hg))).symm
  | none =>
    have hk : k ∉ m'.keys := fun hm => by
      simpa [hg] using (get?_isSome_iff m k).2 ((h.map Prod.fst).mem_iff.2 hm)
    cases hg' : m'.get? k
    · rfl
    · exact absurd ((get?_isSome_iff m' k).1 (by simp [hg'])) hk

theorem keys_perm {m m' : RowMap} (h : m.entries.Perm m'.entries) : m.keys.Perm m'.keys :=
  h.map Prod.fst

end RowMap

/-! ## `sort.Strings` -/

/-- `sort.Strings`. -/
def sortStrings (l : List String) : List String := l.insertionSort (fun a b => ¬ b < a)

theorem sortStrings_perm (l : List String) : (sortStrings l).Perm l :=
  List.perm_insertionSort _ l

theorem sortStrings_sorted (l : List String) : (sortStrings l).Sorted (· ≤ ·) :=
  List.sorted_insertionSort (· ≤ ·) l

@[simp] theorem mem_sortStrings {a : String} {l : List String} : a ∈ sortStrings l ↔ a ∈ l :=
  (sortStrings_perm l).mem_iff

/-- A list of distinct strings comes out strictly ascending. -/
theorem sortStrings_strict {l : List String} (h : l.Nodup) : (sortStrings l).Sorted (· < ·) :=
  (sortStrings_sorted l).lt_of_le ((sortStrings_perm l).symm.nodup h)

/-- The result depends on the elements only, not on the order they came in. -/
theorem sortStrings_eq_of_perm {l l' : List String} (h : l.Perm l') : sortStrings l = sortStrings l' :=
  List.eq_of_perm_of_sorted ((sortStrings_perm l).trans (h.trans (sortStrings_perm l').symm))
    (sortStrings_sorted l) (sortStrings_sorted l')

/-! ## Header lookups -/

/-- `indexOfHeader`: the first position of `name`, or `-1`. -/
def indexOfHeader (headers : List String) (name : String) : Int :=
  if headers.indexOf name < headers.length then headers.indexOf name else -1

/-- `headerIndexMap`: the Go map from a header to its position; a repeated header keeps its last
position. -/
def headerIndexMap (headers : List String) : String → Option Nat :=
  headers.enum.foldl (fun m p => Function.update m p.2 (some p.1)) (fun _ => none)

/-- `v, ok := hidx[c]`, or `-1` when not `ok`. -/
def indexOrMinusOne (hidx : String → Option Nat) (c : String) : Int :=
  match hidx c with
  | some v => v
  | none => -1

/-- `alignedColumnIndices`. -/
def alignedColumnIndices (cols : List String) (hidx1 hidx2 : String → Option Nat) : List Int × List Int :=
  (cols.map (indexOrMinusOne hidx1), cols.map (indexOrMinusOne hidx2))

/-- One pass of `orderedUnionCols`' second loop: a name of file 2 is appended unless it is the key,
outside the union set, or already seen (`seen` is the set of `out`'s names). -/
def appendUnseen (key : String) (set out : List String) (c : String) : List String :=
  if c = key ∨ c ∉ set ∨ c ∈ out then out else out ++ [c]

/-- `orderedUnionCols`: file 1's names other than the key, in order and repeats kept, then file 2's
names not seen yet. -/
def orderedUnionCols (h1 h2 : List String) (key : String) : List String :=
  let set := h1 ++ h2
  h2.foldl (appendUnseen key set) (h1.filter (fun c => c ≠ key ∧ c ∈ set))

theorem indexOf_of_getElem? {hs : List String} (hn : hs.Nodup) {p : Nat} {c : String}
    (h : hs[p]? = some c) : hs.indexOf c = p := by
  obtain ⟨hp, rfl⟩ := List.getElem?_eq_some_iff.1 h
  exact List.indexOf_getElem hn p hp

theorem indexOfHeader_of_mem {hs : List String} {c : String} (h : c ∈ hs) :
    indexOfHeader hs c = hs.indexOf c :=
  if_pos (List.indexOf_lt_length.2 h)

theorem foldl_update_enumFrom (c : String) : ∀ (hs : List String) (n : Nat) (m : String → Option Nat),
    hs.Nodup → (hs.enumFrom n).foldl
      (fun (m : String → Option Nat) (p : Nat × String) => Function.update m p.2 (some p.1)) m c =
      if c ∈ hs then some (n + hs.indexOf c) else m c
  | [], _, _, _ => by simp
  | a :: hs, n, m, hn => by
    rw [List.enumFrom_cons, List.foldl_cons, foldl_update_enumFrom c hs (n + 1) _ (List.nodup_cons.1 hn).2]
    by_cases hca : c = a
    · subst hca; simp [(List.nodup_cons.1 hn).1]
    · simp only [Function.update_noteq hca, List.mem_cons, hca, false_or, List.indexOf_cons_ne _ (Ne.symm hca)]
      split <;> simp only [Nat.succ_eq_add_one, Option.some.injEq]; omega

/-- On a duplicate-free header row the Go map answers what `indexOfHeader` does. -/
theorem indexOrMinusOne_headerIndexMap {hs : List String} (hn : hs.Nodup) (c : String) :
    indexOrMinusOne (headerIndexMap hs) c = indexOfHeader hs c := by
  rw [indexOrMinusOne, headerIndexMap, List.enum_eq_enumFrom, foldl_update_enumFrom c hs 0 _ hn]
  by_cases hc : c ∈ hs
  · simp [hc, indexOfHeader_of_mem hc]
  · simp [hc, indexOfHeader, List.indexOf_lt_length]

theorem foldl_appendUnseen (key : String) (set : List String) : ∀ (h2 out : List String),
    ((h2.foldl (appendUnseen key set) out).Nodup ↔ out.Nodup) ∧
    ∀ c, c ∈ h2.foldl (appendUnseen key set) out ↔ c ∈ out ∨ (c ∈ h2 ∧ c ≠ key ∧ c ∈ set)
  | [], out => by simp
  | d :: h2, out => by
    rw [List.foldl_cons]
    by_cases hd : d = key ∨ d ∉ set ∨ d ∈ out
    · obtain ⟨ih1, ih2⟩ := foldl_appendUnseen key set h2 out
      rw [appendUnseen, if_pos hd]
      refine ⟨ih1, fun c => (ih2 c).trans ?_⟩
      by_cases hc : c = d
      · subst hc; rcases hd with h | h | h <;> simp [h]
      · simp [hc]
    · obtain ⟨ih1, ih2⟩ := foldl_appendUnseen key set h2 (out ++ [d])
      rw [appendUnseen, if_neg hd]
      simp only [not_or, not_not] at hd
      refine ⟨ih1.trans ?_, fun c => (ih2 c).trans ?_⟩
      · simp [List.nodup_append, hd.2.2]
      · by_cases hc : c = d
        · subst hc; simp [hd.1, hd.2.1]
        · simp [hc]

theorem mem_orderedUnionCols {h1 h2 : List String} {key c : String} :
    c ∈ orderedUnionCols h1 h2 key ↔ c ≠ key ∧ (c ∈ h1 ∨ c ∈ h2) := by
  rw [orderedUnionCols, (foldl_appendUnseen key _ h2 _).2 c]
  by_cases hk : c = key <;> simp [hk]; tauto

theorem nodup_orderedUnionCols {h1 : List String} (h2 : List String) (key : String) (hn : h1.Nodup) :
    (orderedUnionCols h1 h2 key).Nodup :=
  (foldl_appendUnseen key _ h2 _).1.2 (hn.filter _)

/-- In a duplicate-free header row, the position of a name is `p` exactly for the name at `p`. -/
theorem indexOfHeader_eq_iff {hs : List String} (hn : hs.Nodup) {p : Nat} {c : String}
    (hp : hs[p]? = some c) (d : String) : indexOfHeader hs d = (p : Int) ↔ d = c := by
  constructor
  · intro h
    unfold indexOfHeader at h
    split at h
    · rename_i hl
      have hd := List.getElem?_indexOf (List.indexOf_lt_length.1 hl)
      rw [show hs.indexOf d = p by omega, hp] at hd
      exact (Option.some.inj hd).symm
    · omega
  · rintro rfl
    rw [indexOfHeader_of_mem (List.mem_iff_getElem?.2 ⟨p, hp⟩), indexOf_of_getElem? hn hp]

/-- A column list without repeats, indexed into a duplicate-free header row: a position whose name is
in the list occurs exactly once, at that name's column. -/
theorem count_map_indexOfHeader {hs cols : List String} (hn : hs.Nodup) (hc : cols.Nodup) {p : Nat}
    {c : String} (hp : hs[p]? = some c) (hm : c ∈ cols) :
    (cols.map (indexOfHeader hs)).count (p : Int) = 1 ∧
      ∀ i : Nat, (cols.map (indexOfHeader hs))[i]? = some (p : Int) → cols[i]? = some c := by
  refine ⟨?_, fun i hi => ?_⟩
  · rw [List.count_eq_countP, List.countP_map, ← List.count_eq_one_of_mem hc hm, List.count_eq_countP]
    exact List.countP_congr (fun d _ => by simpa using indexOfHeader_eq_iff hn hp d)
  · rw [List.getElem?_map] at hi
    obtain ⟨d, hd, hdp⟩ := Option.map_eq_some'.1 hi
    rwa [(indexOfHeader_eq_iff hn hp d).1 hdp] at hd

/-- Over duplicate-free header rows the aligned indices are `indexOfHeader`'s. -/
theorem alignedColumnIndices_of_nodup {h1 h2 : List String} (key : String) (hn1 : h1.Nodup)
    (hn2 : h2.Nodup) :
    alignedColumnIndices (orderedUnionCols h1 h2 key) (headerIndexMap h1) (headerIndexMap h2) =
      ((orderedUnionCols h1 h2 key).map (indexOfHeader h1),
        (orderedUnionCols h1 h2 key).map (indexOfHeader h2)) := by
  simp only [alignedColumnIndices, Prod.mk.injEq]
  exact ⟨List.map_congr_left (fun c _ => indexOrMinusOne_headerIndexMap hn1 c),
    List.map_congr_left (fun c _ => indexOrMinusOne_headerIndexMap hn2 c)⟩

/-- **With duplicate-free header rows, every non-key position is compared exactly once.**  A position
of file 1 other than the key's occurs once among the file-1 indices, opposite the position of the
same name in file 2, or `-1` (an empty cell) when file 2 lacks it; symmetrically for file 2.  The
key's own position never occurs. -/
theorem distinct_headers_align_once {h1 h2 : List String} (key : String) (hn1 : h1.Nodup)
    (hn2 : h2.Nodup) :
    (∀ (p : Nat) c, h1[p]? = some c → c ≠ key →
      (alignedColumnIndices (orderedUnionCols h1 h2 key) (headerIndexMap h1) (headerIndexMap h2)).1.count (p : Int) = 1 ∧
      ∀ i : Nat, (alignedColumnIndices (orderedUnionCols h1 h2 key) (headerIndexMap h1) (headerIndexMap h2)).1[i]? = some (p : Int) →
        (alignedColumnIndices (orderedUnionCols h1 h2 key) (headerIndexMap h1) (headerIndexMap h2)).2[i]? =
          some (indexOfHeader h2 c)) ∧
    (∀ (q : Nat) c, h2[q]? = some c → c ≠ key →
      (alignedColumnIndices (orderedUnionCols h1 h2 key) (headerIndexMap h1) (headerIndexMap h2)).2.count (q : Int) = 1 ∧
      ∀ i : Nat, (alignedColumnIndices (orderedUnionCols h1 h2 key) (headerIndexMap h1) (headerIndexMap h2)).2[i]? = some (q : Int) →
        (alignedColumnIndices (orderedUnionCols h1 h2 key) (headerIndexMap h1) (headerIndexMap h2)).1[i]? =
          some (indexOfHeader h1 c)) ∧
    (∀ p : Nat, h1[p]? = some key →
      (p : Int) ∉ (alignedColumnIndices (orderedUnionCols h1 h2 key) (headerIndexMap h1) (headerIndexMap h2)).1) ∧
    (∀ q : Nat, h2[q]? = some key →
      (q : Int) ∉ (alignedColumnIndices (orderedUnionCols h1 h2 key) (headerIndexMap h1) (headerIndexMap h2)).2) := by
  have hc := nodup_orderedUnionCols h2 key hn1
  have other : ∀ {hs : List String} {p : Nat} {c : String} (g : String → Int), hs.Nodup → hs[p]? = some c →
      (c ∈ h1 ∨ c ∈ h2) → c ≠ key →
      ((orderedUnionCols h1 h2 key).map (indexOfHeader hs)).count (p : Int) = 1 ∧
        ∀ i : Nat, ((orderedUnionCols h1 h2 key).map (indexOfHeader hs))[i]? = some (p : Int) →
          ((orderedUnionCols h1 h2 key).map g)[i]? = some (g c) := by
    intro hs p c g hn hp hin hk
    obtain ⟨hcount, hat⟩ := count_map_indexOfHeader hn hc hp (mem_orderedUnionCols.2 ⟨hk, hin⟩)
    exact ⟨hcount, fun i hi => by rw [List.getElem?_map, hat i hi]; rfl⟩
  have absent : ∀ {hs : List String} {p : Nat}, hs.Nodup → hs[p]? = some key →
      (p : Int) ∉ (orderedUnionCols h1 h2 key).map (indexOfHeader hs) := by
    intro hs p hn hp hm
    obtain ⟨d, hd, hdp⟩ := List.mem_map.1 hm
    exact (mem_orderedUnionCols.1 hd).1 ((indexOfHeader_eq_iff hn hp d).1 hdp)
  rw [alignedColumnIndices_of_nodup key hn1 hn2]
  exact ⟨fun p c hp hk => other _ hn1 hp (.inl (List.mem_iff_getElem?.2 ⟨p, hp⟩)) hk,
    fun q c hq hk => other _ hn2 hq (.inr (List.mem_iff_getElem?.2 ⟨q, hq⟩)) hk,
    fun p hp => absent hn1 hp, fun q hq => absent hn2 hq⟩

theorem distinct_headers_align_once_three : ["id", "A", "B"].Nodup ∧ ["B", "id", "C"].Nodup ∧
    (∀ (p : Nat) c, ["id", "A", "B"][p]? = some c → c ≠ "id" →
      (alignedColumnIndices (orderedUnionCols ["id", "A", "B"] ["B", "id", "C"] "id") (headerIndexMap ["id", "A", "B"])
        (headerIndexMap ["B", "id", "C"])).1.count (p : Int) = 1 ∧
      ∀ i : Nat, (alignedColumnIndices (orderedUnionCols ["id", "A", "B"] ["B", "id", "C"] "id")
          (headerIndexMap ["id", "A", "B"]) (headerIndexMap ["B", "id", "C"])).1[i]? = some (p : Int) →
        (alignedColumnIndices (orderedUnionCols ["id", "A", "B"] ["B", "id", "C"] "id") (headerIndexMap ["id", "A", "B"])
          (headerIndexMap ["B", "id", "C"])).2[i]? = some (indexOfHeader ["B", "id", "C"] c)) ∧
    (∀ (q : Nat) c, ["B", "id", "C"][q]? = some c → c ≠ "id" →
      (alignedColumnIndices (orderedUnionCols ["id", "A", "B"] ["B", "id", "C"] "id") (headerIndexMap ["id", "A", "B"])
        (headerIndexMap ["B", "id", "C"])).2.count (q : Int) = 1 ∧
      ∀ i : Nat, (alignedColumnIndices (orderedUnionCols ["id", "A", "B"] ["B", "id", "C"] "id")
          (headerIndexMap ["id", "A", "B"]) (headerIndexMap ["B", "id", "C"])).2[i]? = some (q : Int) →
        (alignedColumnIndices (orderedUnionCols ["id", "A", "B"] ["B", "id", "C"] "id") (headerIndexMap ["id", "A", "B"])
          (headerIndexMap ["B", "id", "C"])).1[i]? = some (indexOfHeader ["id", "A", "B"] c)) ∧
    (∀ p : Nat, ["id", "A", "B"][p]? = some "id" →
      (p : Int) ∉ (alignedColumnIndices (orderedUnionCols ["id", "A", "B"] ["B", "id", "C"] "id")
        (headerIndexMap ["id", "A", "B"]) (headerIndexMap ["B", "id", "C"])).1) ∧
    (∀ q : Nat, ["B", "id", "C"][q]? = some "id" →
      (q : Int) ∉ (alignedColumnIndices (orderedUnionCols ["id", "A", "B"] ["B", "id", "C"] "id")
        (headerIndexMap ["id", "A", "B"]) (headerIndexMap ["B", "id", "C"])).2) :=
  ⟨by decide, by decide, distinct_headers_align_once "id" (by decide) (by decide)⟩

/-! ## `compareArtifactsFromMaps` -/

/-- `Artifacts`. -/
structure Artifacts where
  key : String
  reducedKeys : List String
  incKeys : List String
  redHeaders : List String
  incHeaders : List String
  orderedCols : List String
  commonKeys : List String
  leftByKey : RowMap
  rightByKey : RowMap
  colIdx1 : List Int
  colIdx2 : List Int

/-- `compareArtifactsFromMaps`.  The loop over `m1` appends each key to `common` when `m2` has it and
to `only1` otherwise; the loop over `m2` appends to `only2` the keys `m1` lacks. -/
def compareArtifactsFromMaps (headers1 headers2 : List String) (m1 m2 : RowMap) (key : String) :
    Except String Artifacts :=
  if trimSpace key = "" then .error "主键列为空" else
  let only1 := m1.keys.filter (fun k => !(m2.get? k).isSome)
  let common := m1.keys.filter (fun k => (m2.get? k).isSome)
  let only2 := m2.keys.filter (fun k => !(m1.get? k).isSome)
  let orderedCols := orderedUnionCols headers1 headers2 key
  let colIdx := alignedColumnIndices orderedCols (headerIndexMap headers1) (headerIndexMap headers2)
  .ok { key := key, reducedKeys := sortStrings only1, incKeys := sortStrings only2,
        redHeaders := headers1, incHeaders := headers2, orderedCols := orderedCols,
        commonKeys := sortStrings common, leftByKey := m1, rightByKey := m2,
        colIdx1 := colIdx.1, colIdx2 := colIdx.2 }

/-- The artifacts of a non-blank key, field by field. -/
theorem compareArtifactsFromMaps_ok (headers1 headers2 : List String) (m1 m2 : RowMap) {key : String}
    (hk : trimSpace key ≠ "") :
    compareArtifactsFromMaps headers1 headers2 m1 m2 key = .ok
      { key := key,
        reducedKeys := sortStrings (m1.keys.filter (fun k => !(m2.get? k).isSome)),
        incKeys := sortStrings (m2.keys.filter (fun k => !(m1.get? k).isSome)),
        redHeaders := headers1, incHeaders := headers2,
        orderedCols := orderedUnionCols headers1 headers2 key,
        commonKeys := sortStrings (m1.keys.filter (fun k => (m2.get? k).isSome)),
        leftByKey := m1, rightByKey := m2,
        colIdx1 := (orderedUnionCols headers1 headers2 key).map (indexOrMinusOne (headerIndexMap headers1)),
        colIdx2 := (orderedUnionCols headers1 headers2 key).map (indexOrMinusOne (headerIndexMap headers2)) } :=
  if_neg hk

theorem compareArtifactsFromMaps_blank (headers1 headers2 : List String) (m1 m2 : RowMap) {key : String}
    (hk : trimSpace key = "") :
    compareArtifactsFromMaps headers1 headers2 m1 m2 key = .error "主键列为空" :=
  if_pos hk

/-- The three key lists of an artifact against the key sets of the two maps: each strictly ascending,
holding the keys only in `m1`, only in `m2`, and in both. -/
structure KeySplit (art : Artifacts) (m1 m2 : RowMap) : Prop where
  reduced_sorted : art.reducedKeys.Sorted (· < ·)
  inc_sorted : art.incKeys.Sorted (· < ·)
  common_sorted : art.commonKeys.Sorted (· < ·)
  mem_reduced : ∀ k, k ∈ art.reducedKeys ↔ k ∈ m1.keys ∧ k ∉ m2.keys
  mem_inc : ∀ k, k ∈ art.incKeys ↔ k ∈ m2.keys ∧ k ∉ m1.keys
  mem_common : ∀ k, k ∈ art.commonKeys ↔ k ∈ m1.keys ∧ k ∈ m2.keys

theorem keySplit_of_ok {headers1 headers2 : List String} {m1 m2 : RowMap} {key : String} {art : Artifacts}
    (h : compareArtifactsFromMaps headers1 headers2 m1 m2 key = .ok art) : KeySplit art m1 m2 := by
  by_cases hk : trimSpace key = ""
  · rw [compareArtifactsFromMaps_blank _ _ _ _ hk] at h; cases h
  rw [compareArtifactsFromMaps_ok _ _ _ _ hk] at h
  cases h
  exact ⟨sortStrings_strict (m1.nodup.filter _), sortStrings_strict (m2.nodup.filter _),
    sortStrings_strict (m1.nodup.filter _), fun k => by simp [RowMap.get?_eq_none_iff],
    fun k => by simp [RowMap.get?_eq_none_iff], fun k => by simp [RowMap.get?_isSome_iff]⟩

/-- **Another iteration order of the same maps gives the same artifacts**, but for the maps' own
order. -/
theorem compareArtifactsFromMaps_perm {headers1 headers2 : List String} {m1 m2 m1' m2' : RowMap}
    (key : String) (h1 : m1.entries.Perm m1'.entries) (h2 : m2.entries.Perm m2'.entries) :
    compareArtifactsFromMaps headers1 headers2 m1' m2' key =
      (compareArtifactsFromMaps headers1 headers2 m1 m2 key).map
        (fun art => { art with leftByKey := m1', rightByKey := m2' }) := by
  by_cases hk : trimSpace key = ""
  · simp only [compareArtifactsFromMaps_blank _ _ _ _ hk]; rfl
  have g1 := funext (RowMap.get?_eq_of_perm h1)
  have g2 := funext (RowMap.get?_eq_of_perm h2)
  have k1 := RowMap.keys_perm h1
  have k2 := RowMap.keys_perm h2
  simp only [compareArtifactsFromMaps_ok _ _ _ _ hk, Except.map, g1, g2]
  rw [sortStrings_eq_of_perm (k1.filter _), sortStrings_eq_of_perm (k2.filter _),
    sortStrings_eq_of_perm (k1.filter (fun k => (m2'.get? k).isSome))]

end Guangyang.Excelcmp
