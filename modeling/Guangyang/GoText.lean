import Mathlib.Data.List.DropRight
import Mathlib.Data.Nat.Digits
/-!
# GoText — the pieces of Go's `strings` and `unicode` the backend reads

`strings.TrimSpace` guards almost every key, id and cell the backend touches, and `strings.ToUpper` /
`strings.ToLower` decide the notify handler's trade state and the normaliser's null literals.  They are
written here over `String.data`, rune by rune, as Go computes them on valid UTF-8.

`strconv.Itoa` and `FormatInt` are Lean's `toString`.  Its digits read back to the number
(`digitsValue_toDigits`), so different numbers print differently (`toString_nat_injective`).
-/
namespace Guangyang

/-- `unicode.IsSpace`: the Latin-1 spaces `\t \n \v \f \r`, space, U+0085 and U+00A0, and the other
Unicode `White_Space` runes. -/
def isSpace (c : Char) : Bool :=
  let n := c.toNat
  n == 0x20 || (0x09 ≤ n && n ≤ 0x0D) || n == 0x85 || n == 0xA0 || n == 0x1680 ||
    (0x2000 ≤ n && n ≤ 0x200A) || n == 0x2028 || n == 0x2029 || n == 0x202F || n == 0x205F || n == 0x3000

/-- `strings.TrimSpace`. -/
def trimSpace (s : String) : String :=
  ⟨(s.data.dropWhile isSpace).rdropWhile isSpace⟩

/-- `unicode.ToUpper`, exact on every rune whose upper case is ASCII (`a`–`z`, U+0131 dotless i, U+017F long s).
Every other rune is kept: Go maps it to a rune outside ASCII, and the only use compares the result with
an ASCII literal. -/
def toUpperRune (c : Char) : Char :=
  if 'a' ≤ c ∧ c ≤ 'z' then Char.ofNat (c.toNat - 32)
  else if c.toNat = 0x131 then 'I' else if c.toNat = 0x17F then 'S' else c

/-- `strings.ToUpper`, as far as a comparison with an ASCII literal reads it. -/
def toUpper (s : String) : String := ⟨s.data.map toUpperRune⟩

/-- `unicode.ToLower`, exact on every rune whose lower case is ASCII (`A`–`Z`, U+0130 dotted capital I, U+212A Kelvin sign). -/
def toLowerRune (c : Char) : Char :=
  if 'A' ≤ c ∧ c ≤ 'Z' then Char.ofNat (c.toNat + 32)
  else if c.toNat = 0x130 then 'i' else if c.toNat = 0x212A then 'k' else c

/-- `strings.ToLower`, as far as a comparison with an ASCII literal reads it. -/
def toLower (s : String) : String := ⟨s.data.map toLowerRune⟩

@[simp] theorem trimSpace_empty : trimSpace "" = "" := rfl

/-- Trimming the front of a list already trimmed at the front and then at the back changes nothing. -/
theorem dropWhile_rdropWhile_dropWhile (p : Char → Bool) (l : List Char) :
    ((l.dropWhile p).rdropWhile p).dropWhile p = (l.dropWhile p).rdropWhile p := by
  obtain ⟨t, ht⟩ := List.rdropWhile_prefix p (l.dropWhile p)
  have h0 := List.dropWhile_get_zero_not p l
  generalize (l.dropWhile p).rdropWhile p = B at *
  rw [← ht] at h0
  cases B with
  | nil => rfl
  | cons b B => simpa using h0 (by simp)

@[simp] theorem trimSpace_trimSpace (s : String) : trimSpace (trimSpace s) = trimSpace s := by
  simp only [trimSpace, dropWhile_rdropWhile_dropWhile, List.rdropWhile_idempotent]

theorem ne_empty_of_trimSpace_ne {s : String} (h : trimSpace s ≠ "") : s ≠ "" := by
  rintro rfl; exact h rfl

theorem dropWhile_append_self {p : Char → Bool} {l₁ l₂ : List Char} (h₁ : l₁.dropWhile p = l₁)
    (h₂ : l₂.dropWhile p = l₂) : (l₁ ++ l₂).dropWhile p = l₁ ++ l₂ := by
  cases l₁ with
  | nil => exact h₂
  | cons x xs =>
    have hx : p x = false := by
      cases hp : p x
      · rfl
      · rw [List.dropWhile_cons, hp, if_pos rfl] at h₁
        have := (List.dropWhile_suffix p (l := xs)).length_le
        rw [h₁, List.length_cons] at this
        omega
    rw [List.cons_append, List.dropWhile_cons, hx]
    rfl

/-- A list trimmed at both ends is shortened neither by `dropWhile` nor by `rdropWhile`. -/
theorem trimmed_iff {p : Char → Bool} {l : List Char} :
    (l.dropWhile p).rdropWhile p = l ↔ l.dropWhile p = l ∧ l.rdropWhile p = l := by
  refine ⟨fun h => ?_, fun ⟨h1, h2⟩ => by rw [h1, h2]⟩
  have hp := List.rdropWhile_prefix p (l.dropWhile p)
  rw [h] at hp
  have hd : l.dropWhile p = l := (List.dropWhile_suffix p).eq_of_length_le hp.length_le
  rw [hd] at h
  exact ⟨hd, h⟩

/-- Two trimmed texts make a trimmed text. -/
theorem trimSpace_append {a b : String} (ha : trimSpace a = a) (hb : trimSpace b = b) :
    trimSpace (a ++ b) = a ++ b := by
  obtain ⟨ha1, ha2⟩ := trimmed_iff.1 (congrArg String.data ha)
  obtain ⟨hb1, hb2⟩ := trimmed_iff.1 (congrArg String.data hb)
  rw [List.rdropWhile, List.reverse_eq_iff] at ha2 hb2
  apply String.ext
  show ((a.data ++ b.data).dropWhile isSpace).rdropWhile isSpace = a.data ++ b.data
  refine trimmed_iff.2 ⟨dropWhile_append_self ha1 hb1, ?_⟩
  rw [List.rdropWhile, List.reverse_append, dropWhile_append_self hb2 ha2, ← List.reverse_append,
    List.reverse_reverse]

/-- A text without a space is trimmed. -/
theorem trimSpace_of_forall {s : String} (h : ∀ c ∈ s.data, isSpace c = false) : trimSpace s = s := by
  apply String.ext
  refine trimmed_iff.2 ⟨List.dropWhile_eq_self_iff.2 fun hl => ?_, List.rdropWhile_eq_self_iff.2 fun hl => ?_⟩
  · simpa using h _ (List.get_mem _ _ _)
  · simp [h _ (List.getLast_mem hl)]

/-! ## Runes below `A` -/

theorem toNat_of_isDigit {c : Char} (h : c.isDigit = true) : 48 ≤ c.toNat ∧ c.toNat ≤ 57 := by
  simpa only [Char.isDigit, Bool.and_eq_true, decide_eq_true_eq] using h

theorem toLowerRune_of_lt {c : Char} (h : c.toNat < 65) : toLowerRune c = c := by
  have h1 : ¬ ('A' ≤ c ∧ c ≤ 'Z') := fun ⟨ha, _⟩ => by
    have : 'A'.toNat ≤ c.toNat := ha
    simp at this; omega
  rw [toLowerRune, if_neg h1, if_neg (by omega), if_neg (by omega)]

/-- Digits and punctuation lie below `A`, where `strings.ToLower` changes nothing. -/
theorem toLower_of_forall {s : String} (h : ∀ c ∈ s.data, c.toNat < 65) : toLower s = s := by
  apply String.ext
  show s.data.map toLowerRune = s.data
  conv_rhs => rw [← List.map_id s.data]
  exact List.map_congr_left fun c hc => toLowerRune_of_lt (h c hc)

theorem toLower_eq_empty_iff (s : String) : toLower s = "" ↔ s = "" := by
  simp only [toLower, String.ext_iff, List.map_eq_nil_iff]

/-! ## Decimal texts: what `strconv.Itoa` prints -/

/-- The number the decimal digits `ds` denote, most significant first. -/
def digitsValue (ds : List Char) : Nat :=
  Nat.ofDigits 10 (ds.reverse.map (fun c => c.toNat - '0'.toNat))

theorem digitsValue_cons (d : Char) (ds : List Char) :
    digitsValue (d :: ds) = digitsValue ds + 10 ^ ds.length * (d.toNat - '0'.toNat) := by
  simp [digitsValue, Nat.ofDigits_append]

theorem digitChar_spec : ∀ d < 10, (Nat.digitChar d).isDigit = true ∧ (Nat.digitChar d).toNat - '0'.toNat = d := by
  decide

/-- `toDigitsCore` puts the digits of `n` in front of `ds`, given enough fuel. -/
theorem toDigitsCore_spec : ∀ (f n : Nat) (ds : List Char), n < f →
    (∀ c ∈ Nat.toDigitsCore 10 f n ds, c.isDigit = true ∨ c ∈ ds) ∧
    digitsValue (Nat.toDigitsCore 10 f n ds) = digitsValue ds + 10 ^ ds.length * n
  | 0, n, ds, h => absurd h (Nat.not_lt_zero n)
  | f + 1, n, ds, h => by
    obtain ⟨hd, hv⟩ := digitChar_spec (n % 10) (Nat.mod_lt _ (by decide))
    have hn := Nat.div_add_mod n 10
    rw [Nat.toDigitsCore]
    have hmem : ∀ c ∈ Nat.digitChar (n % 10) :: ds, c.isDigit = true ∨ c ∈ ds := fun c hc =>
      (List.mem_cons.1 hc).imp (fun h : c = _ => h ▸ hd) id
    split
    · exact ⟨hmem, by rw [digitsValue_cons, hv, show n % 10 = n by omega]⟩
    · obtain ⟨ih1, ih2⟩ := toDigitsCore_spec f (n / 10) (Nat.digitChar (n % 10) :: ds) (by omega)
      refine ⟨fun c hc => (ih1 c hc).elim .inl (hmem c), ?_⟩
      rw [ih2, digitsValue_cons, hv, List.length_cons, pow_succ]
      conv_rhs => rw [← hn]
      ring

theorem toDigits_isDigit (n : Nat) : ∀ c ∈ Nat.toDigits 10 n, c.isDigit = true := fun c hc =>
  ((toDigitsCore_spec (n + 1) n [] (Nat.lt_succ_self n)).1 c hc).resolve_right (List.not_mem_nil c)

@[simp] theorem digitsValue_toDigits (n : Nat) : digitsValue (Nat.toDigits 10 n) = n := by
  simpa [digitsValue] using (toDigitsCore_spec (n + 1) n [] (Nat.lt_succ_self n)).2

theorem toDigitsCore_ne_nil : ∀ (f n : Nat) (d : Char) (ds : List Char), Nat.toDigitsCore 10 f n (d :: ds) ≠ []
  | 0, _, _, _ => List.cons_ne_nil _ _
  | f + 1, n, d, ds => by
    rw [Nat.toDigitsCore]
    split
    · exact List.cons_ne_nil _ _
    · exact toDigitsCore_ne_nil f _ _ _

theorem toDigits_ne_nil (n : Nat) : Nat.toDigits 10 n ≠ [] := by
  rw [Nat.toDigits, Nat.toDigitsCore]
  split
  · exact List.cons_ne_nil _ _
  · exact toDigitsCore_ne_nil n _ _ _

/-- `strconv.Itoa` prints different numbers differently. -/
theorem toString_nat_injective : Function.Injective (fun n : Nat => toString n) := fun m n h => by
  have h' : Nat.toDigits 10 m = Nat.toDigits 10 n := congrArg String.data h
  rw [← digitsValue_toDigits m, h', digitsValue_toDigits]

theorem data_toString_int (i : Int) :
    (toString i).data = (if i < 0 then ['-'] else []) ++ Nat.toDigits 10 i.natAbs := by
  cases i with
  | ofNat m => rfl
  | negSucc m => rw [if_pos (Int.negSucc_lt_zero m)]; rfl

/-- A list cut at the last `a` it holds: what stands before that `a` and what after it. -/
theorem eq_of_append_cons_eq {a : Char} : ∀ {l₁ l₂ s₁ s₂ : List Char}, a ∉ s₁ → a ∉ s₂ →
    l₁ ++ a :: s₁ = l₂ ++ a :: s₂ → l₁ = l₂ ∧ s₁ = s₂
  | [], [], _, _, _, _, h => ⟨rfl, (List.cons.inj h).2⟩
  | [], b :: l₂, _, _, h₁, _, h => by
    obtain ⟨rfl, rfl⟩ := List.cons.inj h
    simp at h₁
  | b :: l₁, [], _, _, _, h₂, h => by
    obtain ⟨rfl, rfl⟩ := List.cons.inj h
    simp at h₂
  | b :: l₁, c :: l₂, _, _, h₁, h₂, h => by
    rw [List.cons_append, List.cons_append, List.cons.injEq] at h
    obtain ⟨rfl, rfl⟩ := eq_of_append_cons_eq h₁ h₂ h.2
    exact ⟨by rw [h.1], rfl⟩

theorem mem_toString_int {i : Int} {c : Char} (h : c ∈ (toString i).data) : c.isDigit = true ∨ c = '-' := by
  rw [data_toString_int] at h
  rcases List.mem_append.1 h with h | h
  · split at h <;> simp_all
  · exact .inl (toDigits_isDigit _ c h)

theorem toString_int_injective : Function.Injective (fun i : Int => toString i) := fun i j h => by
  have h' := congrArg String.data h
  simp only [data_toString_int] at h'
  have hd : ∀ n : Nat, ∃ d ds, Nat.toDigits 10 n = d :: ds ∧ d ≠ '-' := fun n => by
    obtain ⟨d, ds, e⟩ := List.exists_cons_of_ne_nil (toDigits_ne_nil n)
    refine ⟨d, ds, e, fun hd => ?_⟩
    have := toDigits_isDigit n d (by rw [e]; exact List.mem_cons_self _ _)
    rw [hd] at this; cases this
  obtain ⟨d, ds, ei, hdi⟩ := hd i.natAbs
  obtain ⟨d', ds', ej, hdj⟩ := hd j.natAbs
  have hv : ∀ n m : Nat, Nat.toDigits 10 n = Nat.toDigits 10 m → n = m := fun n m e => by
    rw [← digitsValue_toDigits n, e, digitsValue_toDigits]
  by_cases hi : i < 0 <;> by_cases hj : j < 0 <;> simp only [hi, hj, if_true, if_false, List.singleton_append,
    List.nil_append, List.cons.injEq, true_and] at h'
  · have := hv _ _ h'; omega
  · rw [ej] at h'; exact absurd (List.cons.inj h').1.symm hdj
  · rw [ei] at h'; exact absurd (List.cons.inj h').1 hdi
  · have := hv _ _ h'; omega

/-- A name, a rune that is neither a digit nor `-`, and a number: the text gives back the name and the
number. -/
theorem eq_of_append_toString_eq {a : Char} (ha : a.isDigit = false) (ha' : a ≠ '-') {y₁ y₂ : String}
    {n₁ n₂ : Int} (h : y₁ ++ ⟨[a]⟩ ++ toString n₁ = y₂ ++ ⟨[a]⟩ ++ toString n₂) : y₁ = y₂ ∧ n₁ = n₂ := by
  have hm : ∀ n : Int, a ∉ (toString n).data := fun n hm => by
    rcases mem_toString_int hm with h | h
    · rw [ha] at h; cases h
    · exact ha' h
  have h' := congrArg String.data h
  simp only [String.data_append, List.append_assoc, List.singleton_append] at h'
  obtain ⟨e₁, e₂⟩ := eq_of_append_cons_eq (hm n₁) (hm n₂) h'
  exact ⟨String.ext e₁, toString_int_injective (String.ext e₂)⟩

/-! ## Trimmed texts -/

theorem isSpace_of_isDigit {c : Char} (h : c.isDigit = true) : isSpace c = false := by
  have := toNat_of_isDigit h
  simp [isSpace]
  omega

/-- A text whose first and last runes are not spaces is trimmed. -/
theorem trimSpace_of_ends {s : String} (h1 : ∀ c ∈ s.data.head?, isSpace c = false)
    (h2 : ∀ c ∈ s.data.getLast?, isSpace c = false) : trimSpace s = s := by
  apply String.ext
  refine trimmed_iff.2 ⟨List.dropWhile_eq_self_iff.2 fun hl => ?_, List.rdropWhile_eq_self_iff.2 fun hl => ?_⟩
  · obtain ⟨c, cs, hs⟩ := List.exists_cons_of_length_pos hl
    simp only [hs, List.get_eq_getElem, List.getElem_cons_zero]
    simpa using h1 c (by simp [hs])
  · simpa using h2 _ (List.getLast?_eq_getLast _ hl)

theorem head?_of_trimSpace {s : String} (h : trimSpace s = s) : ∀ c ∈ s.data.head?, isSpace c = false := by
  intro c hc
  obtain ⟨cs, hs⟩ : ∃ cs, s.data = c :: cs := by
    cases hd : s.data with
    | nil => simp [hd] at hc
    | cons d ds => simp only [hd, List.head?_cons, Option.mem_def, Option.some.injEq] at hc; exact ⟨ds, hc ▸ rfl⟩
  have h1 := (trimmed_iff.1 (congrArg String.data h)).1
  rw [hs] at h1
  simpa using List.dropWhile_eq_self_iff.1 h1 (by simp)

/-- A text that ends in a number ends in a digit, not a space. -/
theorem getLast?_append_toString (a : String) (n : Nat) :
    ∀ c ∈ (a ++ toString n).data.getLast?, isSpace c = false := by
  intro c hc
  obtain ⟨d, hd⟩ := Option.isSome_iff_exists.1 (List.getLast?_isSome.2 (toDigits_ne_nil n))
  have hd' : (toString n).data.getLast? = some d := hd
  rw [String.data_append, List.getLast?_append, hd', Option.or_some, Option.mem_def, Option.some.injEq] at hc
  subst hc
  exact isSpace_of_isDigit (toDigits_isDigit n d (List.mem_of_getLast?_eq_some hd))

end Guangyang
