import Guangyang.GoText
/-!
# Excelcmp.Normalize — how a cell is read for comparison

`normalizeScalarForCompare` is the one notion of equality the comparison engine has: two cells differ
when their normalised texts differ.  `fingerprint64` is the FNV-1a hash the diff writer compares
first, and `safeCellValue` is what every sheet writes in place of a blank-looking cell.

`normalizeScalarForCompare_reference` states the normaliser case by case against a description of the
texts it rewrites, and that it is idempotent.

Go scans `looksLikeIntegerFloatString` byte by byte.  Every byte of a multi-byte rune is at least
`0x80` and matches none of `+ - . 0-9`, so scanning runes, as here, decides the same.
-/
namespace Guangyang.Excelcmp

/-- The rest of a number literal after an optional leading `+` or `-`. -/
def dropSign : List Char → List Char
  | c :: cs => if c = '+' ∨ c = '-' then cs else c :: cs
  | [] => []

/-- A `.` followed by one or more `0` and nothing else. -/
def isDotZeros : List Char → Bool
  | '.' :: z :: zs => (z :: zs).all (· == '0')
  | _ => false

/-- `looksLikeIntegerFloatString`: the regular expression `^[+-]?\d+\.0+$`, the text Excel gives an
integer stored as a float.  A plain digit string (`"001"`) is not of this shape. -/
def looksLikeIntegerFloatString (s : String) : Bool :=
  let cs := dropSign s.data
  !(cs.takeWhile Char.isDigit).isEmpty && isDotZeros (cs.dropWhile Char.isDigit)

/-- The integer a `looksLikeIntegerFloatString` text denotes: its sign and its digits. -/
def integerFloatValue (s : String) : Int :=
  let n : Int := ((dropSign s.data).takeWhile Char.isDigit).foldl
    (fun n c => 10 * n + (c.toNat - '0'.toNat)) 0
  if s.data.head? = some '-' then -n else n

/-- `normalizeScalarForCompare`.  On a `looksLikeIntegerFloatString` text the Go code parses a
float64 `f` and prints `int64(f)` when `|f| ≤ 9e15`.  The text denotes an integer `n`, and every
integer of magnitude at most `9e15 < 2^53` is a float64, so `f = n` inside that window and `f` lies
outside it exactly when `n` does (an overflowing parse fails and also keeps the text).  Inside the
window `float64(int64(f)) == f` holds, and `FormatInt` prints `n`; this definition computes on `n`. -/
def normalizeScalarForCompare (v : String) : String :=
  let s := trimSpace v
  if s = "" then "" else
  let ls := toLower s
  if ls = "nan" ∨ ls = "nat" ∨ ls = "none" then "" else
  if looksLikeIntegerFloatString s then
    let f := integerFloatValue s
    if f > 9000000000000000 ∨ f < -9000000000000000 then s else toString f
  else s

/-- `fingerprint64`: 64-bit FNV-1a over the UTF-8 bytes of the text. -/
def fingerprint64 (s : String) : UInt64 :=
  s.toUTF8.data.toList.foldl (fun h b => (h ^^^ b.toUInt64) * 1099511628211) 14695981039346656037

/-- `safeCellValue`: a cell that is blank after trimming is written as `""`, any other as it is. -/
def safeCellValue (v : String) : String :=
  if trimSpace v = "" then "" else v

/-- `isIntegerLikeString`: `^[+-]?\d+$`. -/
def isIntegerLikeString (s : String) : Bool :=
  let cs := dropSign s.data
  !cs.isEmpty && cs.all Char.isDigit

theorem safeCellValue_of_trimSpace_ne {v : String} (h : trimSpace v ≠ "") : safeCellValue v = v :=
  if_neg h

/-- A blank cell normalises to the empty text. -/
theorem normalizeScalarForCompare_of_trimSpace {v : String} (h : trimSpace v = "") :
    normalizeScalarForCompare v = "" := by
  simp [normalizeScalarForCompare, h]

/-! ## The text of an integral float

`looksLikeIntegerFloatString` holds exactly of the texts of one shape (`IntegerFloatShape`), and on them
`integerFloatValue` is the integer the digits denote. -/

/-- `s` is `^[+-]?[0-9]+\.0+$`: an optional sign `sg`, the digits `ds`, a dot and the zeros `zs`. -/
structure IntegerFloatShape (s : String) (sg ds zs : List Char) : Prop where
  split : s.data = sg ++ ds ++ '.' :: zs
  sign : sg = [] ∨ sg = ['+'] ∨ sg = ['-']
  digits_ne : ds ≠ []
  digits : ∀ c ∈ ds, c.isDigit = true
  zeros_ne : zs ≠ []
  zeros : ∀ c ∈ zs, c = '0'

/-- The integer a text of that shape denotes. -/
def shapeValue (sg ds : List Char) : Int :=
  if sg = ['-'] then -(digitsValue ds : Int) else digitsValue ds

theorem dropSign_of_shape {s : String} {sg ds zs : List Char} (h : IntegerFloatShape s sg ds zs) :
    dropSign s.data = ds ++ '.' :: zs := by
  obtain ⟨d, ds', rfl⟩ := List.exists_cons_of_ne_nil h.digits_ne
  rw [h.split]
  rcases h.sign with rfl | rfl | rfl
  · have hd := h.digits d (List.mem_cons_self _ _)
    have : ¬ (d = '+' ∨ d = '-') := by rintro (rfl | rfl) <;> simp at hd
    simp [dropSign, this]
  · rfl
  · rfl

theorem isDotZeros_of_forall {zs : List Char} (hne : zs ≠ []) (h : ∀ c ∈ zs, c = '0') :
    isDotZeros ('.' :: zs) = true := by
  obtain ⟨z, zs, rfl⟩ := List.exists_cons_of_ne_nil hne
  simpa [isDotZeros] using h

theorem isDigit_dot : '.'.isDigit = false := rfl

theorem looksLikeIntegerFloatString_of_shape {s : String} {sg ds zs : List Char}
    (h : IntegerFloatShape s sg ds zs) : looksLikeIntegerFloatString s = true := by
  have hd : ∀ c ∈ ds, c.isDigit = true := h.digits
  simp [looksLikeIntegerFloatString, dropSign_of_shape h, List.takeWhile_append_of_pos hd,
    List.dropWhile_append_of_pos hd, h.digits_ne, isDotZeros_of_forall h.zeros_ne h.zeros]

theorem foldl_digits (acc : Int) : ∀ ds : List Char, (∀ c ∈ ds, c.isDigit = true) →
    ds.foldl (fun (n : Int) c => 10 * n + (c.toNat - '0'.toNat)) acc = acc * 10 ^ ds.length + digitsValue ds
  | [], _ => by simp [digitsValue]
  | d :: ds, h => by
    rw [List.foldl_cons, foldl_digits _ ds (fun c hc => h c (List.mem_cons_of_mem _ hc)), digitsValue_cons,
      List.length_cons, pow_succ, Nat.cast_add, Nat.cast_mul, Nat.cast_sub (show '0'.toNat ≤ d.toNat from (toNat_of_isDigit (h d (List.mem_cons_self _ _))).1)]
    push_cast
    ring

theorem integerFloatValue_of_shape {s : String} {sg ds zs : List Char} (h : IntegerFloatShape s sg ds zs) :
    integerFloatValue s = shapeValue sg ds := by
  have hd : ∀ c ∈ ds, c.isDigit = true := h.digits
  have hhead : s.data.head? = some '-' ↔ sg = ['-'] := by
    obtain ⟨d, ds', rfl⟩ := List.exists_cons_of_ne_nil h.digits_ne
    rw [h.split]
    rcases h.sign with rfl | rfl | rfl
    · have := hd d (List.mem_cons_self _ _)
      simp only [List.nil_append, List.cons_append, List.head?_cons, Option.some.injEq]
      constructor
      · rintro rfl; simp at this
      · intro h; cases h
    · simp
    · simp
  rw [integerFloatValue, dropSign_of_shape h, List.takeWhile_append_of_pos hd]
  simp only [shapeValue, hhead]
  rw [List.takeWhile_cons_of_neg (by simp [isDigit_dot]), List.append_nil, foldl_digits 0 ds hd]
  simp

theorem eq_of_isDotZeros {l : List Char} (h : isDotZeros l = true) :
    ∃ zs, zs ≠ [] ∧ (∀ c ∈ zs, c = '0') ∧ l = '.' :: zs := by
  unfold isDotZeros at h
  split at h
  · rename_i z zs
    exact ⟨z :: zs, List.cons_ne_nil _ _, by simpa using h, rfl⟩
  · cases h

theorem exists_sign (l : List Char) : ∃ sg, l = sg ++ dropSign l ∧ (sg = [] ∨ sg = ['+'] ∨ sg = ['-']) := by
  cases l with
  | nil => exact ⟨[], rfl, .inl rfl⟩
  | cons c cs =>
    by_cases hc : c = '+' ∨ c = '-'
    · refine ⟨[c], by simp [dropSign, hc], ?_⟩
      rcases hc with rfl | rfl <;> simp
    · exact ⟨[], by simp [dropSign, hc], .inl rfl⟩

theorem shape_of_looksLikeIntegerFloatString {s : String} (h : looksLikeIntegerFloatString s = true) :
    ∃ sg ds zs, IntegerFloatShape s sg ds zs := by
  obtain ⟨sg, hsg, hsign⟩ := exists_sign s.data
  simp only [looksLikeIntegerFloatString, Bool.and_eq_true, Bool.not_eq_true', List.isEmpty_eq_false] at h
  obtain ⟨zs, hne, hz, hdz⟩ := eq_of_isDotZeros h.2
  refine ⟨sg, (dropSign s.data).takeWhile Char.isDigit, zs, ⟨?_, hsign, ?_, fun c hc => List.mem_takeWhile_imp hc, hne, hz⟩⟩
  · rw [List.append_assoc, ← hdz, List.takeWhile_append_dropWhile]; exact hsg
  · simpa using h.1

/-! ## The normaliser against its description -/

/-- A number's text, digits after an optional `-`, normalises to itself. -/
theorem normalizeScalarForCompare_of_numeral {s : String} (hne : s ≠ "")
    (h : ∀ c ∈ s.data, c.isDigit = true ∨ c = '-') : normalizeScalarForCompare s = s := by
  have hb : ∀ c ∈ s.data, 45 ≤ c.toNat ∧ c.toNat ≤ 57 := fun c hc => by
    rcases h c hc with hd | rfl
    · have := toNat_of_isDigit hd; omega
    · decide
  have hsp : trimSpace s = s := trimSpace_of_forall fun c hc => by
    have := hb c hc; simp [isSpace]; omega
  have hlow : toLower s = s := toLower_of_forall fun c hc => by have := hb c hc; omega
  have hnull : ¬ (s = "nan" ∨ s = "nat" ∨ s = "none") := by
    rintro (rfl | rfl | rfl) <;> simpa using h 'n' (by decide)
  have hdot : looksLikeIntegerFloatString s = false := by
    cases hl : looksLikeIntegerFloatString s
    · rfl
    · obtain ⟨sg, ds, zs, hs⟩ := shape_of_looksLikeIntegerFloatString hl
      have := h '.' (by rw [hs.split]; simp)
      simp [isDigit_dot] at this
  simp only [normalizeScalarForCompare, hsp, hlow, if_neg hne, if_neg hnull, hdot]
  rfl

theorem normalizeScalarForCompare_toString (i : Int) : normalizeScalarForCompare (toString i) = toString i := by
  refine normalizeScalarForCompare_of_numeral (fun h => ?_) (fun c hc => ?_)
  · have := congrArg String.data h
    rw [data_toString_int] at this
    exact toDigits_ne_nil _ (List.append_eq_nil.1 this).2
  · rw [data_toString_int] at hc
    rcases List.mem_append.1 hc with hc | hc
    · split at hc <;> simp_all
    · exact .inl (toDigits_isDigit _ c hc)

theorem normalizeScalarForCompare_trimSpace (v : String) :
    normalizeScalarForCompare (trimSpace v) = normalizeScalarForCompare v := by
  simp only [normalizeScalarForCompare, trimSpace_trimSpace]

theorem normalizeScalarForCompare_cases (v : String) :
    normalizeScalarForCompare v = "" ∨ normalizeScalarForCompare v = trimSpace v ∨
      ∃ i : Int, normalizeScalarForCompare v = toString i := by
  unfold normalizeScalarForCompare
  dsimp only
  split_ifs
  all_goals first | exact .inl rfl | exact .inr (.inl rfl) | exact .inr (.inr ⟨_, rfl⟩)

theorem normalizeScalarForCompare_of_null {v : String} (h : toLower (trimSpace v) ∈ ["", "nan", "nat", "none"]) :
    normalizeScalarForCompare v = "" := by
  by_cases hs : trimSpace v = ""
  · exact normalizeScalarForCompare_of_trimSpace hs
  · have : toLower (trimSpace v) = "nan" ∨ toLower (trimSpace v) = "nat" ∨ toLower (trimSpace v) = "none" := by
      simpa [toLower_eq_empty_iff, hs] using h
    simp only [normalizeScalarForCompare, if_neg hs, if_pos this]

theorem normalizeScalarForCompare_of_not_null {v : String}
    (h : toLower (trimSpace v) ∉ ["", "nan", "nat", "none"]) :
    normalizeScalarForCompare v =
      if looksLikeIntegerFloatString (trimSpace v) then
        if integerFloatValue (trimSpace v) > 9000000000000000 ∨ integerFloatValue (trimSpace v) < -9000000000000000
        then trimSpace v else toString (integerFloatValue (trimSpace v))
      else trimSpace v := by
  have hs : ¬ trimSpace v = "" := fun e => h (by simp [e, toLower_eq_empty_iff])
  have hn : ¬ (toLower (trimSpace v) = "nan" ∨ toLower (trimSpace v) = "nat" ∨ toLower (trimSpace v) = "none") := by
    simpa using (by simpa using h : _ ∧ _).2
  simp only [normalizeScalarForCompare, if_neg hs, if_neg hn]

/-- **`normalizeScalarForCompare` is its description.**  A null literal after trimming gives `""`; a
trimmed text `[+-]d+.0+` gives the canonical decimal of its integer within `9e15` and the trimmed text
outside it; any other text gives the trimmed text.  Normalising twice is normalising once, and a digit
string keeps its leading zeros. -/
theorem normalizeScalarForCompare_reference (v : String) :
    (toLower (trimSpace v) ∈ ["", "nan", "nat", "none"] → normalizeScalarForCompare v = "") ∧
    (toLower (trimSpace v) ∉ ["", "nan", "nat", "none"] → ∀ sg ds zs, IntegerFloatShape (trimSpace v) sg ds zs →
      normalizeScalarForCompare v =
        if |shapeValue sg ds| ≤ 9000000000000000 then toString (shapeValue sg ds) else trimSpace v) ∧
    (toLower (trimSpace v) ∉ ["", "nan", "nat", "none"] →
      (∀ sg ds zs, ¬ IntegerFloatShape (trimSpace v) sg ds zs) → normalizeScalarForCompare v = trimSpace v) ∧
    normalizeScalarForCompare (normalizeScalarForCompare v) = normalizeScalarForCompare v ∧
    (v ≠ "" → (∀ c ∈ v.data, c.isDigit = true) → normalizeScalarForCompare v = v) := by
  refine ⟨normalizeScalarForCompare_of_null, fun hn sg ds zs hs => ?_, fun hn hs => ?_, ?_,
    fun hne hd => normalizeScalarForCompare_of_numeral hne fun c hc => .inl (hd c hc)⟩
  · rw [normalizeScalarForCompare_of_not_null hn, if_pos (looksLikeIntegerFloatString_of_shape hs),
      integerFloatValue_of_shape hs]
    by_cases hf : |shapeValue sg ds| ≤ 9000000000000000
    · rw [if_pos hf, if_neg (by have := abs_le.1 hf; omega)]
    · rw [if_neg hf, if_pos (by rw [abs_le] at hf; omega)]
  · rw [normalizeScalarForCompare_of_not_null hn, if_neg]
    intro hl
    obtain ⟨sg, ds, zs, h⟩ := shape_of_looksLikeIntegerFloatString hl
    exact hs sg ds zs h
  · rcases normalizeScalarForCompare_cases v with h | h | ⟨i, h⟩ <;> rw [h]
    · rfl
    · exact (normalizeScalarForCompare_trimSpace v).trans h
    · exact normalizeScalarForCompare_toString i

end Guangyang.Excelcmp
