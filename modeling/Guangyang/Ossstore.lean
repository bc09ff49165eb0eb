import Guangyang.Routes
/-!
# Ossstore — the object keys of a job's inputs and result

`ossstore.Store` files a job's two uploads under `ObjectKeyForInput(jobID, "file1" | "file2", name)` and its
result under `ObjectKeyForJob(jobID)`, both built by `path.Join`.  Every call to OSS sends the key trimmed
and without its leading slashes (`objectName`).  The upload's name comes from the client;
`ObjectKeyForInput` keeps only its `path.Base`, after turning `\` into `/`.

`path.Clean` is modelled the way Go documents its loop: one slash-separated element per round, with `..`
removing the last name (`cleanStep`).  A name appended to a path stays the last element of the cleaned
path (`pathClean_append_name`).  So an object name ends in the job id, then in the upload's slot or in
`compare.xlsx`.  Hence:
- no input object is the other input's object or a result object, whatever the client names its files
  (`objectNames_separate_slots`);
- the object name determines the job, for every id the intake mints (`objectName_determines_job`).

The pipeline model writes the result key without `path.Clean`.  For a clean prefix and a minted id the
two keys agree (`objectKeyForJob_eq_join`).
-/
namespace Guangyang

/-! ## Go's `path` package -/

/-- What `path.Clean`'s loop has written after some elements: whether the path is rooted, how many `..` it
keeps at the front (only on a relative path), and the names after them, the last one first. -/
structure CleanState where
  rooted : Bool
  dots : Nat
  names : List (List Char)

/-- One round of `path.Clean`'s loop, on the element up to the next `/`.  An empty element and `.` are
skipped.  `..` removes the last name; with no name left it is kept at the front of a relative path and
dropped at the root.  Any other element is appended. -/
def cleanStep (st : CleanState) (e : List Char) : CleanState :=
  if e = [] ∨ e = ['.'] then st
  else if e = ['.', '.'] then
    match st.names with
    | _ :: rest => { st with names := rest }
    | [] => if st.rooted then st else { st with dots := st.dots + 1 }
  else { st with names := e :: st.names }

/-- The elements `path.Clean` writes out, in order: the kept `..`, then the names. -/
def CleanState.parts (st : CleanState) : List (List Char) :=
  List.replicate st.dots ['.', '.'] ++ st.names.reverse

/-- `path.Clean`'s output: `/` for a rooted path, then the parts joined by `/`; `.` when that is empty. -/
def CleanState.render (st : CleanState) : List Char :=
  if st.rooted then '/' :: ['/'].intercalate st.parts
  else if st.parts = [] then ['.'] else ['/'].intercalate st.parts

/-- `path.Clean`. -/
def pathClean (p : String) : String :=
  if p = "" then "." else ⟨((p.data.splitOn '/').foldl cleanStep ⟨p.data.head? = some '/', 0, []⟩).render⟩

/-- `path.Join`'s buffer: each element after a `/`, once the buffer is not empty. -/
def joinBuf : List Char → List String → List Char
  | buf, [] => buf
  | buf, e :: es =>
    if buf ≠ [] ∨ e ≠ "" then joinBuf ((if buf ≠ [] then buf ++ ['/'] else buf) ++ e.data) es
    else joinBuf buf es

/-- `path.Join`: `""` when every element is empty (their lengths sum to `0`), else the cleaned buffer. -/
def pathJoin (elem : List String) : String :=
  if (elem.map String.length).sum = 0 then "" else pathClean ⟨joinBuf [] elem⟩

/-- `path.Base`: the last element once the trailing slashes are gone; `.` for the empty path and `/` for
a path of slashes only. -/
def pathBase (p : String) : String :=
  if p = "" then "." else
    let q := p.data.rdropWhile (· == '/')
    let b := (q.reverse.takeWhile (· != '/')).reverse
    if b = [] then "/" else ⟨b⟩

/-- A name `path.Clean` keeps as it is: not empty, not `.` or `..`, without `/`. -/
def PlainElem (t : List Char) : Prop := t ≠ [] ∧ t ≠ ['.'] ∧ t ≠ ['.', '.'] ∧ '/' ∉ t

instance (t : List Char) : Decidable (PlainElem t) := inferInstanceAs (Decidable (_ ∧ _))

/-- What cleaning a path with one more name gives, from the cleaned path: the name after a `/`, alone
after `.`, and after the root. -/
def joinName (c t : List Char) : List Char :=
  if c = ['.'] then t else if c = ['/'] then '/' :: t else c ++ '/' :: t

/-! ### Splitting and joining at `/` -/

theorem intercalate_cons (p : List Char) : ∀ ps : List (List Char),
    ['/'].intercalate (p :: ps) = p ++ (if ps = [] then [] else '/' :: ['/'].intercalate ps)
  | [] => by simp [List.intercalate]
  | q :: ps => by simp [List.intercalate, List.intersperse_cons_cons]

theorem intercalate_append : ∀ {A B : List (List Char)}, A ≠ [] → B ≠ [] →
    ['/'].intercalate (A ++ B) = ['/'].intercalate A ++ '/' :: ['/'].intercalate B
  | [], _, h, _ => absurd rfl h
  | [a], B, _, hB => by rw [List.singleton_append, intercalate_cons, if_neg hB]; simp [List.intercalate]
  | a :: a' :: A, B, _, hB => by
    rw [List.cons_append, intercalate_cons, if_neg (by simp), intercalate_append (List.cons_ne_nil a' A) hB,
      intercalate_cons a (a' :: A), if_neg (List.cons_ne_nil a' A)]
    simp

theorem splitOn_append_cons (p t : List Char) :
    (p ++ '/' :: t).splitOn '/' = p.splitOn '/' ++ t.splitOn '/' := by
  have hp : p.splitOn '/' ≠ [] := List.splitOnP_ne_nil _ p
  have ht : t.splitOn '/' ≠ [] := List.splitOnP_ne_nil _ t
  refine splitOn_eq_iff.2 ⟨by simp [hp], fun x hx => ?_, ?_⟩
  · rcases List.mem_append.1 hx with h | h
    · exact not_mem_of_mem_splitOn _ _ x h
    · exact not_mem_of_mem_splitOn _ _ x h
  · rw [intercalate_append hp ht, List.intercalate_splitOn, List.intercalate_splitOn]

/-! ### `path.Clean` -/

/-- Every name `path.Clean` holds is one it keeps as it is. -/
def CleanState.NamesOK (st : CleanState) : Prop := ∀ n ∈ st.names, PlainElem n

theorem cleanStep_namesOK {st : CleanState} (h : st.NamesOK) {e : List Char} (he : '/' ∉ e) :
    (cleanStep st e).NamesOK := by
  unfold cleanStep
  by_cases h0 : e = [] ∨ e = ['.']
  · rw [if_pos h0]; exact h
  rw [if_neg h0]
  by_cases h1 : e = ['.', '.']
  · rw [if_pos h1]
    split
    · rename_i n rest hn
      exact fun m hm => h m (by rw [hn]; exact List.mem_cons_of_mem n hm)
    · split <;> exact h
  · rw [if_neg h1]
    intro n hn
    rcases List.mem_cons.1 hn with rfl | hn
    · exact ⟨fun e => h0 (.inl e), fun e => h0 (.inr e), h1, he⟩
    · exact h n hn

theorem foldl_cleanStep_namesOK : ∀ (es : List (List Char)) (st : CleanState), st.NamesOK →
    (∀ e ∈ es, '/' ∉ e) → (es.foldl cleanStep st).NamesOK
  | [], _, h, _ => h
  | e :: es, _, h, he =>
    foldl_cleanStep_namesOK es _ (cleanStep_namesOK h (he e (List.mem_cons_self e es)))
      (fun e' h' => he e' (List.mem_cons_of_mem e h'))

theorem cleanStep_plain (st : CleanState) {t : List Char} (ht : PlainElem t) :
    cleanStep st t = { st with names := t :: st.names } := by
  rw [cleanStep, if_neg (not_or.2 ⟨ht.1, ht.2.1⟩), if_neg ht.2.2.1]

@[simp] theorem cleanStep_nil (st : CleanState) : cleanStep st [] = st := by
  rw [cleanStep, if_pos (.inl rfl)]

theorem eq_singleton_of_append {x r : List Char} {c : Char} (h : x ++ r = [c]) (hx : x ≠ []) : x = [c] := by
  obtain ⟨a, x', rfl⟩ := List.exists_cons_of_ne_nil hx
  obtain ⟨rfl, h'⟩ := List.cons.inj h
  rw [(List.append_eq_nil.1 h').1]

/-- Appending a name to a state that holds only names it keeps is joining it to the rendered path. -/
theorem render_push {st : CleanState} (h : st.NamesOK) (t : List Char) :
    ({ st with names := t :: st.names } : CleanState).render = joinName st.render t := by
  have hparts : ({ st with names := t :: st.names } : CleanState).parts = st.parts ++ [t] := by
    simp [CleanState.parts]
  simp only [CleanState.render, hparts]
  rcases hp : st.parts with _ | ⟨x, xs⟩
  · cases st.rooted <;> simp [joinName, List.intercalate]
  · have hx : x ≠ [] ∧ x ≠ ['.'] ∧ '/' ∉ x := by
      have hm : x ∈ st.parts := by rw [hp]; exact List.mem_cons_self x xs
      rcases List.mem_append.1 hm with hm | hm
      · rw [List.eq_of_mem_replicate hm]; decide
      · have := h x (List.mem_reverse.1 hm)
        exact ⟨this.1, this.2.1, this.2.2.2⟩
    have hI : ['/'].intercalate (x :: xs) ≠ [] := by rw [intercalate_cons]; simp [hx.1]
    rw [intercalate_append (List.cons_ne_nil x xs) (List.cons_ne_nil t []), intercalate_cons t []]
    cases st.rooted
    · have h1 : ['/'].intercalate (x :: xs) ≠ ['.'] := fun e => hx.2.1 <|
        eq_singleton_of_append (by rw [← intercalate_cons x xs]; exact e) hx.1
      have h2 : ['/'].intercalate (x :: xs) ≠ ['/'] := fun e => hx.2.2 <| by
        rw [eq_singleton_of_append (by rw [← intercalate_cons x xs]; exact e) hx.1]
        exact List.mem_singleton_self _
      simp [joinName, h1, h2]
    · simp [joinName, hI]

theorem splitOn_of_not_mem {t : List Char} (ht : '/' ∉ t) : t.splitOn '/' = [t] :=
  List.splitOnP_eq_single _ _ fun x hx h => ht (by rw [beq_iff_eq] at h; exact h ▸ hx)

theorem pathClean_mk {p : List Char} (hp : p ≠ []) :
    (pathClean ⟨p⟩).data = ((p.splitOn '/').foldl cleanStep ⟨p.head? = some '/', 0, []⟩).render := by
  rw [pathClean, if_neg (fun e => hp (congrArg String.data e))]

/-- **A name appended to a path is the last element of the cleaned path.** -/
theorem pathClean_append_name {p t : List Char} (hp : p ≠ []) (ht : PlainElem t) :
    (pathClean ⟨p ++ '/' :: t⟩).data = joinName (pathClean ⟨p⟩).data t := by
  have hok := foldl_cleanStep_namesOK (p.splitOn '/') ⟨p.head? = some '/', 0, []⟩
    (fun _ h => absurd h (List.not_mem_nil _)) (not_mem_of_mem_splitOn '/' p)
  rw [pathClean_mk (by simp), pathClean_mk hp, splitOn_append_cons, List.foldl_append,
    splitOn_of_not_mem ht.2.2.2, List.foldl_cons, List.foldl_nil, cleanStep_plain _ ht,
    List.head?_append_of_ne_nil p hp, render_push hok t]

/-- A trailing slash changes nothing. -/
theorem pathClean_append_slash {p : List Char} (hp : p ≠ []) : pathClean ⟨p ++ ['/']⟩ = pathClean ⟨p⟩ := by
  apply String.ext
  rw [pathClean_mk (by simp), pathClean_mk hp, splitOn_append_cons, List.foldl_append, List.splitOn_nil,
    List.foldl_cons, cleanStep_nil, List.foldl_nil, List.head?_append_of_ne_nil p hp]

/-- A name alone is its own cleaned path. -/
theorem pathClean_plain {t : List Char} (ht : PlainElem t) : (pathClean ⟨t⟩).data = t := by
  have hh : (t.head? = some '/') = False := eq_false fun h => ht.2.2.2 (List.mem_of_mem_head? h)
  rw [pathClean_mk ht.1, splitOn_of_not_mem ht.2.2.2, List.foldl_cons, List.foldl_nil, cleanStep_plain _ ht]
  simp [CleanState.render, CleanState.parts, hh, List.intercalate]

/-! ### Cleaning a clean path -/

/-- The loop never changes whether the path is rooted, and keeps no `..` at the root. -/
theorem cleanStep_rooted (st : CleanState) (e : List Char) :
    (cleanStep st e).rooted = st.rooted ∧ (st.rooted = true → (cleanStep st e).dots = st.dots) := by
  unfold cleanStep
  split
  · exact ⟨rfl, fun _ => rfl⟩
  split
  · split
    · exact ⟨rfl, fun _ => rfl⟩
    · split
      · exact ⟨rfl, fun _ => rfl⟩
      · rename_i h
        exact ⟨rfl, fun h' => absurd h' h⟩
  · exact ⟨rfl, fun _ => rfl⟩

theorem foldl_cleanStep_rooted : ∀ (es : List (List Char)) (st : CleanState),
    (es.foldl cleanStep st).rooted = st.rooted ∧ (st.rooted = true → (es.foldl cleanStep st).dots = st.dots)
  | [], _ => ⟨rfl, fun _ => rfl⟩
  | e :: es, st => by
    obtain ⟨h1, h2⟩ := cleanStep_rooted st e
    obtain ⟨h3, h4⟩ := foldl_cleanStep_rooted es (cleanStep st e)
    exact ⟨h3.trans h1, fun h => (h4 (h1.trans h)).trans (h2 h)⟩

/-- Names the loop keeps are appended one by one. -/
theorem foldl_cleanStep_names : ∀ (ns : List (List Char)) (st : CleanState), (∀ n ∈ ns, PlainElem n) →
    ns.foldl cleanStep st = { st with names := ns.reverse ++ st.names }
  | [], _, _ => rfl
  | n :: ns, st, h => by
    rw [List.foldl_cons, cleanStep_plain st (h n (List.mem_cons_self n ns)),
      foldl_cleanStep_names ns _ fun m hm => h m (List.mem_cons_of_mem n hm)]
    simp

/-- On a relative path with no name yet, each `..` is kept at the front. -/
theorem foldl_cleanStep_dots : ∀ (k d : Nat),
    (List.replicate k ['.', '.']).foldl cleanStep ⟨false, d, []⟩ = ⟨false, d + k, []⟩
  | 0, _ => rfl
  | k + 1, d => by
    rw [List.replicate_succ, List.foldl_cons, show cleanStep ⟨false, d, []⟩ ['.', '.'] = ⟨false, d + 1, []⟩ from rfl,
      foldl_cleanStep_dots k (d + 1), Nat.add_right_comm, Nat.add_assoc]

/-- Splitting the written parts at `/` gives them back, as far as the loop can tell. -/
theorem foldl_splitOn_intercalate {P : List (List Char)} (hP : ∀ x ∈ P, '/' ∉ x) (st : CleanState) :
    ((['/'].intercalate P).splitOn '/').foldl cleanStep st = P.foldl cleanStep st := by
  rcases P with _ | ⟨x, xs⟩
  · rfl
  · rw [List.splitOn_intercalate _ _ hP (List.cons_ne_nil x xs)]

/-- **`path.Clean` leaves what its loop writes unchanged.** -/
theorem pathClean_render {st : CleanState} (hn : st.NamesOK) (hr : st.rooted = true → st.dots = 0) :
    (pathClean ⟨st.render⟩).data = st.render := by
  have hP : ∀ x ∈ st.parts, x ≠ [] ∧ '/' ∉ x := fun x hx => by
    rcases List.mem_append.1 hx with hx | hx
    · rw [List.eq_of_mem_replicate hx]; decide
    · exact ⟨(hn x (List.mem_reverse.1 hx)).1, (hn x (List.mem_reverse.1 hx)).2.2.2⟩
  have hP' : ∀ x ∈ st.parts, '/' ∉ x := fun x hx => (hP x hx).2
  have hnames : ∀ n ∈ st.names.reverse, PlainElem n := fun n hn' => hn n (List.mem_reverse.1 hn')
  obtain ⟨rooted, dots, names⟩ := st
  cases rooted with
  | true =>
    obtain rfl : dots = 0 := hr rfl
    have e1 : ('/' :: ['/'].intercalate (CleanState.parts ⟨true, 0, names⟩)) =
        [] ++ '/' :: ['/'].intercalate (CleanState.parts ⟨true, 0, names⟩) := rfl
    simp only [CleanState.render, if_true]
    rw [pathClean_mk (List.cons_ne_nil _ _), e1, splitOn_append_cons, List.foldl_append, List.splitOn_nil,
      List.foldl_cons, cleanStep_nil, List.foldl_nil, foldl_splitOn_intercalate hP']
    simp only [CleanState.parts, List.replicate_zero, List.nil_append] at hnames ⊢
    rw [foldl_cleanStep_names _ _ hnames]
    simp [CleanState.render, CleanState.parts]
  | false =>
    by_cases h0 : CleanState.parts ⟨false, dots, names⟩ = []
    · have hd : dots = 0 ∧ names = [] := by simpa [CleanState.parts] using h0
      obtain ⟨rfl, rfl⟩ := hd
      rfl
    · obtain ⟨x, xs, hx⟩ := List.exists_cons_of_ne_nil h0
      have hxne := (hP x (by rw [hx]; exact List.mem_cons_self x xs))
      have hhead : (['/'].intercalate (CleanState.parts ⟨false, dots, names⟩)).head? ≠ some '/' := by
        rw [hx, intercalate_cons]
        obtain ⟨c, cs, rfl⟩ := List.exists_cons_of_ne_nil hxne.1
        exact fun h => hxne.2 (by simp at h; simp [h])
      have hI : ['/'].intercalate (CleanState.parts ⟨false, dots, names⟩) ≠ [] := by
        rw [hx, intercalate_cons]; simp [hxne.1]
      simp only [CleanState.render, Bool.false_eq_true, if_false, if_neg h0]
      rw [pathClean_mk hI, foldl_splitOn_intercalate hP', decide_eq_false hhead, CleanState.parts,
        List.foldl_append, foldl_cleanStep_dots, Nat.zero_add, foldl_cleanStep_names _ _ hnames,
        List.reverse_reverse, List.append_nil]
      simp only [CleanState.render, Bool.false_eq_true, if_false, if_neg h0]
      rfl

/-- **`path.Clean` is idempotent.** -/
theorem pathClean_idem (p : String) : pathClean (pathClean p) = pathClean p := by
  by_cases hp : p = ""
  · rw [hp]; rfl
  · have hd : p.data ≠ [] := fun e => hp (String.ext e)
    have h := pathClean_mk hd
    have hok := foldl_cleanStep_namesOK (p.data.splitOn '/') ⟨p.data.head? = some '/', 0, []⟩
      (fun _ h => absurd h (List.not_mem_nil _)) (not_mem_of_mem_splitOn '/' p.data)
    have hr := (foldl_cleanStep_rooted (p.data.splitOn '/') ⟨p.data.head? = some '/', 0, []⟩).2
    have e : pathClean p = ⟨((p.data.splitOn '/').foldl cleanStep ⟨p.data.head? = some '/', 0, []⟩).render⟩ :=
      String.ext h
    rw [e]
    exact String.ext (pathClean_render hok fun h' => by
      rw [(foldl_cleanStep_rooted _ _).1] at h'
      exact hr h')

/-! ### `path.Base` and `path.Join` -/

/-- `path.Base` gives `/`, or an element without `/`. -/
theorem pathBase_cases (p : String) :
    pathBase p = "/" ∨ ((pathBase p).data ≠ [] ∧ '/' ∉ (pathBase p).data) := by
  unfold pathBase
  by_cases h : p = ""
  · rw [if_pos h]; right; decide
  rw [if_neg h]
  dsimp only
  split
  · exact .inl rfl
  · rename_i hb
    refine .inr ⟨hb, fun hm => ?_⟩
    have := List.mem_takeWhile_imp (List.mem_reverse.1 hm)
    simp at this

/-- `path.Join`'s buffer ends in a last nonempty element after a `/`, unless it was empty before. -/
theorem joinBuf_append_singleton {c : String} (hc : c ≠ "") : ∀ (buf : List Char) (es : List String),
    joinBuf buf (es ++ [c]) =
      (if joinBuf buf es ≠ [] then joinBuf buf es ++ ['/'] else joinBuf buf es) ++ c.data
  | buf, [] => by simp only [List.nil_append, joinBuf, if_pos (Or.inr hc)]
  | buf, e :: es => by
    simp only [List.cons_append, joinBuf]
    split <;> exact joinBuf_append_singleton hc _ es

theorem pathJoin_append_singleton {c : String} (hc : c ≠ "") (es : List String) :
    pathJoin (es ++ [c]) = pathClean ⟨(if joinBuf [] es ≠ [] then joinBuf [] es ++ ['/'] else joinBuf [] es) ++ c.data⟩ := by
  have hl : c.length ≠ 0 := fun h => hc (String.ext (List.length_eq_zero.1 h))
  rw [pathJoin, if_neg (by simp [hl]), joinBuf_append_singleton hc]

/-! ### Where a path ends -/

/-- `s` ends in `t`: `t` is the whole of `s`, or what follows a `/` at its end. -/
def EndsIn (s t : List Char) : Prop := s = t ∨ ∃ Y, s = Y ++ '/' :: t

theorem endsIn_joinName (c t : List Char) : EndsIn (joinName c t) t := by
  unfold joinName
  split
  · exact .inl rfl
  split
  · exact .inr ⟨[], rfl⟩
  · exact .inr ⟨c, rfl⟩

/-- **The last element of a path is unique.** -/
theorem EndsIn.unique {s t₁ t₂ : List Char} (h₁ : EndsIn s t₁) (h₂ : EndsIn s t₂) (ht₁ : '/' ∉ t₁)
    (ht₂ : '/' ∉ t₂) : t₁ = t₂ := by
  rcases h₁ with rfl | ⟨Y₁, rfl⟩ <;> rcases h₂ with h | ⟨Y₂, h⟩
  · exact h
  · exact absurd (h ▸ List.mem_append_right _ (List.mem_cons_self _ _)) ht₁
  · exact absurd (h ▸ List.mem_append_right _ (List.mem_cons_self _ _)) ht₂
  · exact (eq_of_append_cons_eq ht₁ ht₂ h).2

/-- A path that ends in `j/t` is a path ending in `j`, then `/t`. -/
theorem EndsIn.split {s j t : List Char} (h : EndsIn s (j ++ '/' :: t)) : ∃ P, s = P ++ '/' :: t ∧ EndsIn P j := by
  rcases h with rfl | ⟨Y, rfl⟩
  · exact ⟨j, rfl, .inl rfl⟩
  · exact ⟨Y ++ '/' :: j, by simp, .inr ⟨Y, rfl⟩⟩

/-- **The last two elements of a path are unique.** -/
theorem EndsIn.unique₂ {s j₁ j₂ t₁ t₂ : List Char} (h₁ : EndsIn s (j₁ ++ '/' :: t₁)) (h₂ : EndsIn s (j₂ ++ '/' :: t₂))
    (hj₁ : '/' ∉ j₁) (hj₂ : '/' ∉ j₂) (ht₁ : '/' ∉ t₁) (ht₂ : '/' ∉ t₂) : j₁ = j₂ ∧ t₁ = t₂ := by
  obtain ⟨P₁, rfl, hP₁⟩ := h₁.split
  obtain ⟨P₂, h, hP₂⟩ := h₂.split
  obtain ⟨rfl, rfl⟩ := eq_of_append_cons_eq ht₁ ht₂ h
  exact ⟨hP₁.unique hP₂ hj₁ hj₂, rfl⟩

theorem EndsIn.joinName {c j : List Char} (h : EndsIn c j) (hj : PlainElem j) (t : List Char) :
    EndsIn (joinName c t) (j ++ '/' :: t) := by
  have hc : c ≠ ['.'] ∧ c ≠ ['/'] := by
    rcases h with rfl | ⟨Y, rfl⟩
    · exact ⟨hj.2.1, fun e => hj.2.2.2 (e ▸ List.mem_singleton_self _)⟩
    · refine ⟨fun e => ?_, fun e => ?_⟩ <;>
        have := congrArg List.length e <;> simp at this <;> exact hj.1 (List.length_eq_zero.1 (by omega))
  rw [Guangyang.joinName, if_neg hc.1, if_neg hc.2]
  rcases h with rfl | ⟨Y, rfl⟩
  · exact .inl rfl
  · exact .inr ⟨Y, by simp⟩

/-- A path that ends in a plain name is not `.`, `/` or empty. -/
theorem EndsIn.ne_of_plain {s t : List Char} (h : EndsIn s t) (ht : PlainElem t) :
    s ≠ ['.'] ∧ s ≠ ['/'] ∧ s ≠ [] := by
  rcases h with rfl | ⟨Y, rfl⟩
  · exact ⟨ht.2.1, fun e => ht.2.2.2 (e ▸ List.mem_singleton_self _), ht.1⟩
  · refine ⟨fun e => ?_, fun e => ?_, by simp⟩
    · have := e ▸ List.mem_append_right Y (List.mem_cons_self '/' t)
      simp at this
    · have hl := congrArg List.length e
      simp only [List.length_append, List.length_cons, List.length_nil] at hl
      exact ht.1 (List.length_eq_zero.1 (by omega))

/-! ### Trimming at the ends -/

theorem dropWhile_append_cons {p : Char → Bool} {b : Char} (hb : p b = false) (A B : List Char) :
    (A ++ b :: B).dropWhile p = A.dropWhile p ++ b :: B := by
  rw [List.dropWhile_append]
  split
  · rename_i h
    rw [List.isEmpty_iff.1 h, List.dropWhile_cons_of_neg (by simp [hb]), List.nil_append]
  · rfl

theorem rdropWhile_append_cons {p : Char → Bool} {a : Char} (ha : p a = false) (A B : List Char) :
    (A ++ a :: B).rdropWhile p = A ++ a :: B.rdropWhile p := by
  simp only [List.rdropWhile, List.reverse_append, List.reverse_cons, List.append_assoc, List.singleton_append]
  rw [dropWhile_append_cons ha]
  simp

/-- What `dropWhile` leaves of a list that ends in `x` is empty or still ends in `x`. -/
theorem dropWhile_append_singleton (p : Char → Bool) (Z : List Char) (x : Char) :
    (Z ++ [x]).dropWhile p = [] ∨ ∃ D, (Z ++ [x]).dropWhile p = D ++ [x] := by
  obtain ⟨pre, hpre⟩ := List.dropWhile_suffix p (l := Z ++ [x])
  rcases List.eq_nil_or_concat ((Z ++ [x]).dropWhile p) with h | ⟨L, b, h⟩
  · exact .inl h
  · rw [h, List.concat_eq_append, ← List.append_assoc] at hpre
    obtain ⟨-, hb⟩ := List.append_inj' hpre rfl
    exact .inr ⟨L, by rw [h, List.concat_eq_append, List.singleton_inj.1 hb]⟩

/-! ## The store's keys -/

namespace Ossstore

/-- `Store.ObjectKeyForJob`. -/
def objectKeyForJob (pfx jobID : String) : String :=
  pathJoin [pfx, trimSpace jobID, "compare.xlsx"]

/-- `strings.ReplaceAll(name, "\\", "/")`. -/
def slashBackslashes (name : String) : String := ⟨name.data.map fun c => if c = '\\' then '/' else c⟩

/-- `Store.ObjectKeyForInput`: the job id and the slot trimmed (the slot `file` when blank), the name
trimmed (`upload` when blank) and cut to its `path.Base`. -/
def objectKeyForInput (inputPfx jobID which originalName : String) : String :=
  let which := if trimSpace which = "" then "file" else trimSpace which
  let name := if trimSpace originalName = "" then "upload" else trimSpace originalName
  pathJoin [inputPfx, trimSpace jobID, which ++ "_" ++ pathBase (slashBackslashes name)]

/-- The object name the store sends OSS for a key (`PutFileFromPath`, `GetObjectToFile`, `PutResultFile`,
`GetObject`, `SignDownloadURL`): `strings.TrimLeft(strings.TrimSpace(objectKey), "/")`. -/
def objectName (objectKey : String) : String := ⟨(trimSpace objectKey).data.dropWhile (· == '/')⟩

/-- `NewFromEnv`'s prefixes: the variable trimmed and cut of its slashes, else the default. -/
def storePrefix (raw dflt : String) : String :=
  if trimSlashes (trimSpace raw).data = [] then dflt else ⟨trimSlashes (trimSpace raw).data⟩

/-- `hex.EncodeToString`. -/
def hexEncode (bs : List UInt8) : String :=
  ⟨bs.flatMap fun b => [Nat.digitChar (b.toNat / 16), Nat.digitChar (b.toNat % 16)]⟩

/-- `compare.newJobID`: `job_` and the random bytes in hex, or the clock's nanoseconds when `rand.Read`
fails. -/
def newJobID (buf : Option (List UInt8)) (unixNano : Int) : String :=
  match buf with
  | some b => "job_" ++ hexEncode b
  | none => "job_" ++ toString unixNano

/-- **OSS's trimming keeps the last elements of a key** when they start with a rune that is neither white
space nor `/`; only the white space at the end goes. -/
theorem objectName_endsIn {s : String} {u₀ : List Char} {c : Char} (h : EndsIn s.data (c :: u₀))
    (hc : isSpace c = false) (hc' : c ≠ '/') : EndsIn (objectName s).data (c :: u₀.rdropWhile isSpace) := by
  have hc'' : (c == '/') = false := beq_false_of_ne hc'
  have hsl : isSpace '/' = false := by decide
  obtain ⟨s⟩ := s
  simp only [objectName, trimSpace]
  rcases h with rfl | ⟨Y, rfl⟩
  · rw [List.dropWhile_cons_of_neg (by simp [hc]), ← List.nil_append (c :: u₀), rdropWhile_append_cons hc,
      List.nil_append, List.dropWhile_cons_of_neg (by simp [hc''])]
    exact .inl rfl
  · rw [dropWhile_append_cons hsl, ← List.singleton_append, ← List.append_assoc, rdropWhile_append_cons hc,
      dropWhile_append_cons (p := fun x => x == '/') hc'']
    rcases dropWhile_append_singleton (· == '/') (Y.dropWhile isSpace) '/' with h | ⟨D, h⟩
    · rw [h]; exact .inl rfl
    · rw [h]; exact .inr ⟨D, by simp⟩

/-- The last element a slot `w` and a base name `b` leave in a cleaned key: `w_b`, or `w_` when the base is
`/`. -/
def slotElem (w : List Char) (b : String) : List Char := w ++ '_' :: (if b = "/" then [] else b.data)

theorem slotElem_plain {w : List Char} (hw : '/' ∉ w) {b : String} (hb : b = "/" ∨ (b.data ≠ [] ∧ '/' ∉ b.data)) :
    PlainElem (slotElem w b) := by
  have hu : '_' ∈ slotElem w b := List.mem_append_right _ (List.mem_cons_self _ _)
  refine ⟨fun h => by simp [h] at hu, fun h => by simp [h] at hu, fun h => by simp [h] at hu, fun h => ?_⟩
  simp only [slotElem, List.mem_append, List.mem_cons] at h
  rcases h with h | h | h
  · exact hw h
  · exact absurd h (by decide)
  · split at h
    · exact List.not_mem_nil _ h
    · next hb' => exact (hb.resolve_left hb').2 h

/-- **The cleaned key of a slot after a buffer `B`**: the slot's element after the cleaned buffer. -/
theorem pathClean_slot {w : List Char} (hw : '/' ∉ w) (B : List Char) {b : String}
    (hb : b = "/" ∨ (b.data ≠ [] ∧ '/' ∉ b.data)) :
    (pathClean ⟨(if B ≠ [] then B ++ ['/'] else B) ++ (w ++ '_' :: b.data)⟩).data =
      if B ≠ [] then joinName (pathClean ⟨B⟩).data (slotElem w b) else slotElem w b := by
  have hp := slotElem_plain hw hb
  by_cases hs : b = "/"
  · have e : w ++ '_' :: b.data = slotElem w b ++ ['/'] := by simp [slotElem, hs]
    rw [e]
    by_cases hB : B = []
    · simp only [hB, ne_eq, not_true_eq_false, if_false, List.nil_append]
      rw [pathClean_append_slash hp.1, pathClean_plain hp]
    · simp only [hB, ne_eq, not_false_eq_true, if_true]
      rw [show B ++ ['/'] ++ (slotElem w b ++ ['/']) = (B ++ '/' :: slotElem w b) ++ ['/'] by simp,
        pathClean_append_slash (by simp), pathClean_append_name hB hp]
  · have e : w ++ '_' :: b.data = slotElem w b := by simp [slotElem, hs]
    rw [e]
    by_cases hB : B = []
    · simp only [hB, ne_eq, not_true_eq_false, if_false, List.nil_append]
      rw [pathClean_plain hp]
    · simp only [hB, ne_eq, not_false_eq_true, if_true]
      rw [List.append_assoc, List.singleton_append, pathClean_append_name hB hp]

/-- `path.Join`'s buffer for a prefix and a job id. -/
theorem joinBuf_pair (pfx : String) {j : String} (hj : j ≠ "") :
    joinBuf [] [pfx, j] = if pfx = "" then j.data else pfx.data ++ '/' :: j.data := by
  have hj' : j.data ≠ [] := fun h => hj (String.ext h)
  by_cases hp : pfx = ""
  · subst hp; simp [joinBuf, hj]
  · have hp' : pfx.data ≠ [] := fun h => hp (String.ext h)
    simp [joinBuf, hp, hp']

/-- The cleaned buffer of a prefix and a plain job id ends in the id. -/
theorem endsIn_pathClean_pair (pfx : String) {j : List Char} (hj : PlainElem j) :
    EndsIn (pathClean ⟨joinBuf [] [pfx, ⟨j⟩]⟩).data j := by
  rw [joinBuf_pair pfx (fun h => hj.1 (congrArg String.data h))]
  by_cases hp : pfx = ""
  · rw [if_pos hp, pathClean_plain hj]; exact .inl rfl
  · rw [if_neg hp, pathClean_append_name (fun h => hp (String.ext h)) hj]
    exact endsIn_joinName _ _

/-- A plain name joined to a clean directory other than `.` and `/` is the directory, a `/` and the name. -/
theorem pathJoin_child {d : String} (hd : pathClean d = d) (h1 : d ≠ ".") (h2 : d ≠ "/") (h0 : d ≠ "")
    {e : String} (he : PlainElem e.data) : (pathJoin [d, e]).data = d.data ++ '/' :: e.data := by
  have he' : e ≠ "" := fun h => he.1 (congrArg String.data h)
  have hl : e.length ≠ 0 := fun h => he' (String.ext (List.length_eq_zero.1 h))
  have hc : (pathClean ⟨d.data⟩).data = d.data := congrArg String.data hd
  rw [pathJoin, if_neg (by simp [hl]), joinBuf_pair d he', if_neg h0,
    pathClean_append_name (fun h => h0 (String.ext h)) he, hc, joinName,
    if_neg (fun h => h1 (String.ext h)), if_neg (fun h => h2 (String.ext h))]

theorem slot_ne (w : String) (hw : w = "file1" ∨ w = "file2") :
    (if trimSpace w = "" then "file" else trimSpace w) = w := by
  rcases hw with rfl | rfl <;> decide

/-- The base name `ObjectKeyForInput` keeps of an upload's name. -/
def uploadBase (originalName : String) : String :=
  pathBase (slashBackslashes (if trimSpace originalName = "" then "upload" else trimSpace originalName))

theorem uploadBase_cases (originalName : String) :
    uploadBase originalName = "/" ∨ ((uploadBase originalName).data ≠ [] ∧ '/' ∉ (uploadBase originalName).data) :=
  pathBase_cases _

/-- **The cleaned input key**: the slot's element after the cleaned prefix and job id. -/
theorem objectKeyForInput_data (inputPfx jobID originalName : String) {w : String} (hw : w = "file1" ∨ w = "file2") :
    (objectKeyForInput inputPfx jobID w originalName).data =
      if joinBuf [] [inputPfx, trimSpace jobID] ≠ [] then
        joinName (pathClean ⟨joinBuf [] [inputPfx, trimSpace jobID]⟩).data (slotElem w.data (uploadBase originalName))
      else slotElem w.data (uploadBase originalName) := by
  have hw' : '/' ∉ w.data := by rcases hw with rfl | rfl <;> decide
  have hne : w ++ "_" ++ uploadBase originalName ≠ "" := by
    intro h
    have h5 : w.data.length = 5 := by rcases hw with rfl | rfl <;> rfl
    have hl := congrArg (fun s : String => s.data.length) h
    simp only [String.data_append, List.length_append, List.length_nil, List.length_singleton] at hl
    omega
  simp only [objectKeyForInput, slot_ne w hw]
  show (pathJoin ([inputPfx, trimSpace jobID] ++ [w ++ "_" ++ uploadBase originalName])).data = _
  rw [pathJoin_append_singleton hne, String.data_append, String.data_append, List.append_assoc]
  exact pathClean_slot hw' _ (uploadBase_cases originalName)

/-- **The cleaned result key**: `compare.xlsx` after the cleaned prefix and job id. -/
theorem objectKeyForJob_data (pfx jobID : String) :
    (objectKeyForJob pfx jobID).data =
      if joinBuf [] [pfx, trimSpace jobID] ≠ [] then
        joinName (pathClean ⟨joinBuf [] [pfx, trimSpace jobID]⟩).data "compare.xlsx".data
      else "compare.xlsx".data := by
  have hc : PlainElem "compare.xlsx".data := by decide
  rw [objectKeyForJob, show [pfx, trimSpace jobID, "compare.xlsx"] = [pfx, trimSpace jobID] ++ ["compare.xlsx"]
    from rfl, pathJoin_append_singleton (by decide)]
  by_cases hB : joinBuf [] [pfx, trimSpace jobID] = []
  · simp only [hB, ne_eq, not_true_eq_false, if_false, List.nil_append]
    exact pathClean_plain hc
  · simp only [hB, ne_eq, not_false_eq_true, if_true, List.append_assoc, List.singleton_append]
    exact pathClean_append_name hB hc

/-! ### What OSS receives -/

/-- The slot's element as OSS receives it: its trailing white space gone. -/
def trimmedSlot (w : List Char) (b : String) : List Char :=
  w ++ '_' :: (if b = "/" then [] else b.data).rdropWhile isSpace

theorem not_mem_trimmedSlot {w : List Char} (hw : '/' ∉ w) (b : String)
    (hb : b = "/" ∨ (b.data ≠ [] ∧ '/' ∉ b.data)) : '/' ∉ trimmedSlot w b := by
  intro h
  simp only [trimmedSlot, List.mem_append, List.mem_cons] at h
  rcases h with h | h | h
  · exact hw h
  · exact absurd h (by decide)
  · have h' := (List.rdropWhile_prefix isSpace _).subset h
    split at h'
    · exact List.not_mem_nil _ h'
    · next hb' => exact (hb.resolve_left hb').2 h'

theorem isSpace_underscore : isSpace '_' = false := by decide

/-- An input key as OSS receives it ends in the trimmed slot. -/
theorem objectName_input (inputPfx jobID originalName : String) {w : String} (hw : w = "file1" ∨ w = "file2") :
    EndsIn (objectName (objectKeyForInput inputPfx jobID w originalName)).data
      (trimmedSlot w.data (uploadBase originalName)) := by
  have hk : EndsIn (objectKeyForInput inputPfx jobID w originalName).data (slotElem w.data (uploadBase originalName)) := by
    rw [objectKeyForInput_data _ _ _ hw]
    split
    · exact endsIn_joinName _ _
    · exact .inl rfl
  obtain ⟨w₀, hw₀⟩ : ∃ w₀, w.data = 'f' :: w₀ := by rcases hw with rfl | rfl <;> exact ⟨_, rfl⟩
  rw [slotElem, hw₀, List.cons_append] at hk
  have := objectName_endsIn hk (by decide) (by decide)
  rwa [rdropWhile_append_cons isSpace_underscore, ← List.cons_append, ← hw₀] at this

/-- A result key as OSS receives it ends in `compare.xlsx`. -/
theorem objectName_result (pfx jobID : String) :
    EndsIn (objectName (objectKeyForJob pfx jobID)).data "compare.xlsx".data := by
  have hk : EndsIn (objectKeyForJob pfx jobID).data ('c' :: "ompare.xlsx".data) := by
    rw [objectKeyForJob_data]
    split
    · exact endsIn_joinName _ _
    · exact .inl rfl
  have := objectName_endsIn hk (by decide) (by decide)
  rwa [show "ompare.xlsx".data.rdropWhile isSpace = "ompare.xlsx".data by decide] at this

/-! ### The ids the intake mints -/

theorem digitChar_hex : ∀ k < 16, Nat.digitChar k ≠ '/' ∧ isSpace (Nat.digitChar k) = false := by
  decide

/-- No rune of a minted id is `/` or white space. -/
theorem newJobID_runes (buf : Option (List UInt8)) (unixNano : Int) :
    ∀ c ∈ (newJobID buf unixNano).data, c ≠ '/' ∧ isSpace c = false := by
  intro c hc
  cases buf with
  | some b =>
    rcases List.mem_append.1 hc with h | h
    · exact (show ∀ c ∈ "job_".data, c ≠ '/' ∧ isSpace c = false by decide) c h
    · obtain ⟨x, -, hx⟩ := List.mem_flatMap.1 h
      rcases List.mem_cons.1 hx with rfl | hx
      · exact digitChar_hex _ (Nat.div_lt_of_lt_mul (by have := x.toNat_lt_size; simp only [UInt8.size] at this; omega))
      · rw [List.mem_singleton.1 hx]
        exact digitChar_hex _ (Nat.mod_lt _ (by decide))
  | none =>
    rcases List.mem_append.1 hc with h | h
    · exact (show ∀ c ∈ "job_".data, c ≠ '/' ∧ isSpace c = false by decide) c h
    · rcases mem_toString_int h with hd | rfl
      · exact ⟨fun e => by rw [e] at hd; exact absurd hd (by decide), isSpace_of_isDigit hd⟩
      · decide

theorem newJobID_data (buf : Option (List UInt8)) (unixNano : Int) :
    ∃ rest, (newJobID buf unixNano).data = 'j' :: rest := by
  cases buf <;> exact ⟨_, rfl⟩

theorem trimSpace_newJobID (buf : Option (List UInt8)) (unixNano : Int) :
    trimSpace (newJobID buf unixNano) = newJobID buf unixNano :=
  trimSpace_of_forall fun c hc => (newJobID_runes buf unixNano c hc).2

/-- A minted id is a plain element. -/
theorem newJobID_plain (buf : Option (List UInt8)) (unixNano : Int) : PlainElem (newJobID buf unixNano).data := by
  obtain ⟨rest, h⟩ := newJobID_data buf unixNano
  refine ⟨by simp [h], by simp [h], by simp [h], fun hm => (newJobID_runes buf unixNano '/' hm).1 rfl⟩

/-- The cleaned buffer of a prefix and a minted id ends in the id. -/
theorem endsIn_pathClean_newJobID (pfx : String) (buf : Option (List UInt8)) (unixNano : Int) :
    EndsIn (pathClean ⟨joinBuf [] [pfx, trimSpace (newJobID buf unixNano)]⟩).data (newJobID buf unixNano).data := by
  rw [trimSpace_newJobID]
  exact endsIn_pathClean_pair pfx (newJobID_plain buf unixNano)

theorem joinBuf_newJobID_ne (pfx : String) (buf : Option (List UInt8)) (unixNano : Int) :
    joinBuf [] [pfx, trimSpace (newJobID buf unixNano)] ≠ [] := by
  obtain ⟨rest, h⟩ := newJobID_data buf unixNano
  rw [trimSpace_newJobID, joinBuf_pair pfx (fun e => by simp [e] at h)]
  split <;> simp [h]

/-- An input key of a minted job, as OSS receives it, ends in the id and then the trimmed slot. -/
theorem objectName_input_job (inputPfx originalName : String) (buf : Option (List UInt8)) (unixNano : Int)
    {w : String} (hw : w = "file1" ∨ w = "file2") :
    EndsIn (objectName (objectKeyForInput inputPfx (newJobID buf unixNano) w originalName)).data
      ((newJobID buf unixNano).data ++ '/' :: trimmedSlot w.data (uploadBase originalName)) := by
  have hk := (endsIn_pathClean_newJobID inputPfx buf unixNano).joinName (newJobID_plain buf unixNano)
    (slotElem w.data (uploadBase originalName))
  have e := objectKeyForInput_data inputPfx (newJobID buf unixNano) originalName hw
  rw [if_pos (joinBuf_newJobID_ne inputPfx buf unixNano)] at e
  obtain ⟨rest, hj⟩ := newJobID_data buf unixNano
  have e2 : (newJobID buf unixNano).data ++ '/' :: slotElem w.data (uploadBase originalName) =
      'j' :: ((rest ++ '/' :: w.data) ++ '_' :: (if uploadBase originalName = "/" then [] else
        (uploadBase originalName).data)) := by simp [hj, slotElem]
  rw [← e, e2] at hk
  have := objectName_endsIn hk (by decide) (by decide)
  rw [rdropWhile_append_cons isSpace_underscore] at this
  rw [List.append_assoc, List.cons_append] at this
  rw [trimmedSlot, hj, List.cons_append]
  exact this

/-- A result key of a minted job, as OSS receives it, ends in the id and then `compare.xlsx`. -/
theorem objectName_result_job (pfx : String) (buf : Option (List UInt8)) (unixNano : Int) :
    EndsIn (objectName (objectKeyForJob pfx (newJobID buf unixNano))).data
      ((newJobID buf unixNano).data ++ '/' :: "compare.xlsx".data) := by
  have hk := (endsIn_pathClean_newJobID pfx buf unixNano).joinName (newJobID_plain buf unixNano) "compare.xlsx".data
  have e := objectKeyForJob_data pfx (newJobID buf unixNano)
  rw [if_pos (joinBuf_newJobID_ne pfx buf unixNano)] at e
  obtain ⟨rest, hj⟩ := newJobID_data buf unixNano
  rw [← e, hj, List.cons_append] at hk
  have := objectName_endsIn hk (by decide) (by decide)
  have e3 : rest ++ '/' :: "compare.xlsx".data = (rest ++ '/' :: "compare.xls".data) ++ ['x'] := by
    rw [List.append_assoc]; rfl
  rw [e3, rdropWhile_append_cons (show isSpace 'x' = false by decide), List.rdropWhile_nil, ← e3,
    ← List.cons_append, ← hj] at this
  exact this

/-! ### No two objects collide -/

theorem trimmedSlot_file1_ne (b₁ b₂ : String) : trimmedSlot "file1".data b₁ ≠ trimmedSlot "file2".data b₂ := fun h =>
  absurd (List.append_inj h rfl).1 (by decide)

theorem trimmedSlot_ne_compare (w : List Char) (b : String) : trimmedSlot w b ≠ "compare.xlsx".data := fun h =>
  absurd (h ▸ List.mem_append_right w (List.mem_cons_self '_' _) : '_' ∈ "compare.xlsx".data) (by decide)

/-- **Whatever the client names its files, and for any prefixes and job ids, OSS never receives the same
object name for a job's first input, another's second input, or any job's result.** -/
theorem objectNames_separate_slots (inputPfx₁ inputPfx₂ pfx jobID₁ jobID₂ jobID₃ name₁ name₂ : String) :
    objectName (objectKeyForInput inputPfx₁ jobID₁ "file1" name₁) ≠
        objectName (objectKeyForInput inputPfx₂ jobID₂ "file2" name₂) ∧
      objectName (objectKeyForInput inputPfx₁ jobID₁ "file1" name₁) ≠ objectName (objectKeyForJob pfx jobID₃) ∧
      objectName (objectKeyForInput inputPfx₂ jobID₂ "file2" name₂) ≠ objectName (objectKeyForJob pfx jobID₃) := by
  have e₁ := objectName_input inputPfx₁ jobID₁ name₁ (.inl rfl)
  have e₂ := objectName_input inputPfx₂ jobID₂ name₂ (.inr rfl)
  have e₃ := objectName_result pfx jobID₃
  have n₁ := not_mem_trimmedSlot (by decide : '/' ∉ "file1".data) _ (uploadBase_cases name₁)
  have n₂ := not_mem_trimmedSlot (by decide : '/' ∉ "file2".data) _ (uploadBase_cases name₂)
  have n₃ : '/' ∉ "compare.xlsx".data := by decide
  refine ⟨fun h => ?_, fun h => ?_, fun h => ?_⟩
  · rw [h] at e₁; exact trimmedSlot_file1_ne _ _ (e₁.unique e₂ n₁ n₂)
  · rw [h] at e₁; exact trimmedSlot_ne_compare _ _ (e₁.unique e₃ n₁ n₃)
  · rw [h] at e₂; exact trimmedSlot_ne_compare _ _ (e₂.unique e₃ n₂ n₃)

/-- **For every pair of ids the intake mints, an object name OSS receives names one job: equal input
objects are the same job's same slot, and equal result objects the same job's result.** -/
theorem objectName_determines_job (buf₁ buf₂ : Option (List UInt8)) (unixNano₁ unixNano₂ : Int)
    (inputPfx₁ inputPfx₂ pfx₁ pfx₂ w₁ w₂ name₁ name₂ : String)
    (hw₁ : w₁ = "file1" ∨ w₁ = "file2") (hw₂ : w₂ = "file1" ∨ w₂ = "file2") :
    (objectName (objectKeyForInput inputPfx₁ (newJobID buf₁ unixNano₁) w₁ name₁) =
        objectName (objectKeyForInput inputPfx₂ (newJobID buf₂ unixNano₂) w₂ name₂) →
      newJobID buf₁ unixNano₁ = newJobID buf₂ unixNano₂ ∧ w₁ = w₂) ∧
    (objectName (objectKeyForJob pfx₁ (newJobID buf₁ unixNano₁)) =
        objectName (objectKeyForJob pfx₂ (newJobID buf₂ unixNano₂)) →
      newJobID buf₁ unixNano₁ = newJobID buf₂ unixNano₂) := by
  have hj₁ := (newJobID_plain buf₁ unixNano₁).2.2.2
  have hj₂ := (newJobID_plain buf₂ unixNano₂).2.2.2
  have hw₁' : '/' ∉ w₁.data := by rcases hw₁ with rfl | rfl <;> decide
  have hw₂' : '/' ∉ w₂.data := by rcases hw₂ with rfl | rfl <;> decide
  have n₃ : '/' ∉ "compare.xlsx".data := by decide
  refine ⟨fun h => ?_, fun h => ?_⟩
  · have e₁ := objectName_input_job inputPfx₁ name₁ buf₁ unixNano₁ hw₁
    rw [h] at e₁
    obtain ⟨hj, hs⟩ := e₁.unique₂ (objectName_input_job inputPfx₂ name₂ buf₂ unixNano₂ hw₂) hj₁ hj₂
      (not_mem_trimmedSlot hw₁' _ (uploadBase_cases name₁)) (not_mem_trimmedSlot hw₂' _ (uploadBase_cases name₂))
    have hl : w₁.data.length = w₂.data.length := by
      rcases hw₁ with rfl | rfl <;> rcases hw₂ with rfl | rfl <;> rfl
    exact ⟨String.ext hj, String.ext (List.append_inj hs hl).1⟩
  · have e₁ := objectName_result_job pfx₁ buf₁ unixNano₁
    rw [h] at e₁
    exact String.ext (e₁.unique₂ (objectName_result_job pfx₂ buf₂ unixNano₂) hj₁ hj₂ n₃ n₃).1

theorem objectName_determines_job_file1 :
    ("file1" = "file1" ∨ "file1" = "file2") ∧ ("file2" = "file1" ∨ "file2" = "file2") ∧
    ((objectName (objectKeyForInput "compare-inputs" (newJobID none 7) "file1" "a.xlsx") =
        objectName (objectKeyForInput "compare-inputs" (newJobID none 8) "file2" "a.xlsx") →
      newJobID none 7 = newJobID none 8 ∧ "file1" = "file2") ∧
    (objectName (objectKeyForJob "compare-results" (newJobID none 7)) =
        objectName (objectKeyForJob "compare-results" (newJobID none 8)) →
      newJobID none 7 = newJobID none 8)) :=
  ⟨.inl rfl, .inr rfl, objectName_determines_job none none 7 8 "compare-inputs" "compare-inputs" "compare-results"
    "compare-results" "file1" "file2" "a.xlsx" "a.xlsx" (.inl rfl) (.inr rfl)⟩

/-! ### The pipeline's key -/

theorem storePrefix_ne (raw : String) :
    storePrefix raw "compare-results" ≠ "" ∧ (storePrefix raw "compare-results").data.head? ≠ some '/' := by
  unfold storePrefix
  split
  · decide
  · rename_i h
    exact ⟨fun e => h (congrArg String.data e), head?_trimSlashes _⟩

theorem joinName_append {c : List Char} (hc : c ≠ []) (t u : List Char) :
    joinName (c ++ '/' :: t) u = c ++ '/' :: t ++ '/' :: u := by
  have hl : 2 ≤ (c ++ '/' :: t).length := by
    have := List.length_pos.2 hc
    simp only [List.length_append, List.length_cons]; omega
  rw [joinName, if_neg (fun e => by rw [e] at hl; simp at hl), if_neg (fun e => by rw [e] at hl; simp at hl)]

/-- **The pipeline's result key is the store's**: for every `OSS_PREFIX` whose store prefix is a clean path
other than `.`, and every id the intake mints, the key the pipeline model writes without `path.Clean` is
the one `ObjectKeyForJob` computes. -/
theorem objectKeyForJob_eq_join (raw : String) (buf : Option (List UInt8)) (unixNano : Int)
    (hp : pathClean (storePrefix raw "compare-results") = storePrefix raw "compare-results" ∧
      storePrefix raw "compare-results" ≠ ".") :
    Guangyang.objectKeyForJob (storePrefix raw "compare-results") (newJobID buf unixNano) =
      objectKeyForJob (storePrefix raw "compare-results") (newJobID buf unixNano) := by
  obtain ⟨hne, hhead⟩ := storePrefix_ne raw
  have hP : (storePrefix raw "compare-results").data ≠ [] := fun e => hne (String.ext e)
  have hj := newJobID_plain buf unixNano
  have h1 : joinName (storePrefix raw "compare-results").data (newJobID buf unixNano).data =
      (storePrefix raw "compare-results").data ++ '/' :: (newJobID buf unixNano).data := by
    rw [joinName, if_neg (fun e => hp.2 (String.ext e)), if_neg (fun e => hhead (by rw [e]; rfl))]
  apply String.ext
  rw [objectKeyForJob_data, if_pos (joinBuf_newJobID_ne _ _ _), trimSpace_newJobID,
    joinBuf_pair _ (fun e => hj.1 (congrArg String.data e)), if_neg hne, pathClean_append_name hP hj, hp.1, h1,
    joinName_append hP]
  simp only [Guangyang.objectKeyForJob, if_neg hne, trimSpace_newJobID, String.data_append, List.append_assoc]
  rfl

theorem objectKeyForJob_eq_join_default :
    (pathClean (storePrefix "" "compare-results") = storePrefix "" "compare-results" ∧
      storePrefix "" "compare-results" ≠ ".") ∧
    Guangyang.objectKeyForJob (storePrefix "" "compare-results") (newJobID none 7) =
      objectKeyForJob (storePrefix "" "compare-results") (newJobID none 7) :=
  ⟨⟨by decide, by decide⟩, objectKeyForJob_eq_join "" none 7 ⟨by decide, by decide⟩⟩

end Ossstore

end Guangyang
