import TypeSuite.Number.Name
import TypeSuite.Proofs.Number.Digits

/-!
# Reading decimal numerals

A spelling is a text of ASCII digits with an optional point and exponent. `Spelling.IsValid.read`
says that it is read, with a sign in front, as the number that its digits and its exponent denote.
-/

namespace TypeSuite.Number

/-! ## Digits -/

/-- An ASCII digit has the code of its value above that of zero. -/
theorem is_digit_iff (c : Char) : c.isDigit = true ↔ 48 ≤ c.toNat ∧ c.toNat ≤ 57 := by
  rw [Char.isDigit, Bool.and_eq_true, decide_eq_true_iff, decide_eq_true_iff]
  rfl

/-- The value of an ASCII digit. -/
theorem digit_value_of_is_digit {c : Char} (h : c.isDigit = true) :
    Text.digitValue? c = some (c.toNat - '0'.toNat) := by
  rw [is_digit_iff] at h
  rw [Text.digitValue?, Text.digitZeros, List.findSome?_cons, if_pos (by simp; omega)]
  rfl

/-- A text does not go on with a digit. -/
def EndsDigits (text : List Char) : Prop :=
  ∀ c ∈ text.head?, Text.digitValue? c = none

/-- A run of digits is taken off whatever follows it. -/
theorem split_digits_append {digits rest : List Char} (hdigits : ∀ c ∈ digits, c.isDigit = true)
    (hrest : EndsDigits rest) :
    splitDigits (digits ++ rest) = (digits.map (fun c => c.toNat - '0'.toNat), rest) := by
  induction digits with
  | nil =>
      cases rest with
      | nil => rfl
      | cons c rest =>
          have hnone : Text.digitValue? c = none := hrest c rfl
          rw [List.nil_append, splitDigits, hnone]
          rfl
  | cons c digits ih =>
      rw [List.forall_mem_cons] at hdigits
      rw [List.cons_append, splitDigits, digit_value_of_is_digit hdigits.1, ih hdigits.2]
      rfl

/-- The number of a run of digit values is that of the digits. -/
theorem of_digits_map (digits : List Char) :
    Text.ofDigits (digits.map fun c => c.toNat - '0'.toNat) = Nat.ofDigitChars 10 digits 0 := by
  rw [Text.ofDigits, Nat.ofDigitChars, List.foldl_map]

/-! ## Exponents -/

/-- Nothing is read as the exponent zero. -/
theorem read_exponent_nil : readExponent? [] = some 0 :=
  rfl

/-- A text that is read as an exponent ends the digits before it. -/
theorem ends_digits_of_read_exponent {text : List Char} {e : ℤ}
    (h : readExponent? text = some e) : EndsDigits text ∧ splitFraction text = ([], text) := by
  cases text with
  | nil => exact ⟨fun _ hc => by simp at hc, rfl⟩
  | cons c rest =>
      rw [readExponent?] at h
      split at h
      case isTrue hmark =>
        rw [Bool.or_eq_true, beq_iff_eq, beq_iff_eq] at hmark
        rcases hmark with rfl | rfl
        · exact ⟨fun c hc => by cases hc; decide, rfl⟩
        · exact ⟨fun c hc => by cases hc; decide, rfl⟩
      case isFalse => cases h

/-- Without a point in front, there are no digits behind one. -/
theorem split_fraction_of_ne {c : Char} (h : c ≠ '.') (rest : List Char) :
    splitFraction (c :: rest) = ([], c :: rest) := by
  unfold splitFraction
  split
  case h_1 heq => exact absurd (List.cons.inj heq).1 h
  case h_2 => rfl

/-- An exponent is read with its sign. -/
theorem read_exponent_marked {mark : Char} {body digits : List Char} {negative : Bool}
    (hmark : mark = 'e' ∨ mark = 'E') (hsign : splitSign body = (negative, digits))
    (hne : digits ≠ []) (hdigits : ∀ c ∈ digits, c.isDigit = true) :
    readExponent? (mark :: body) = some (if negative then -(Nat.ofDigitChars 10 digits 0 : ℤ)
      else Nat.ofDigitChars 10 digits 0) := by
  have hends : EndsDigits [] := fun _ hc => absurd hc (by simp)
  have hsplit := split_digits_append hdigits hends
  rw [List.append_nil] at hsplit
  have hmark' : (mark == 'e' || mark == 'E') = true := by
    rw [Bool.or_eq_true, beq_iff_eq, beq_iff_eq]
    exact hmark
  rw [readExponent?, if_pos hmark', hsign]
  obtain ⟨c, cs, rfl⟩ := List.exists_cons_of_ne_nil hne
  simp only [hsplit, List.map_cons]
  rw [← List.map_cons (f := fun c : Char => c.toNat - '0'.toNat), of_digits_map]

/-! ## Digits with a point -/

variable (negative : Bool) {whole fraction exponent : List Char} {e : ℤ}

/-- Digits with an exponent are read as a whole number with that exponent. -/
theorem read_finite_whole (hne : whole ≠ []) (hwhole : ∀ c ∈ whole, c.isDigit = true)
    (hexponent : readExponent? exponent = some e) :
    readFinite? negative (whole ++ exponent) =
      some (.finite negative (Nat.ofDigitChars 10 whole 0) e) := by
  obtain ⟨hends, hpoint⟩ := ends_digits_of_read_exponent hexponent
  have hempty : (whole.map fun c => c.toNat - '0'.toNat).isEmpty = false := by
    simp [hne]
  rw [readFinite?, split_digits_append hwhole hends]
  simp only [hpoint, hexponent, hempty, List.append_nil, of_digits_map]
  simp

/-- Digits around a point are read as a whole number whose exponent is lowered by the digits after
the point. -/
theorem read_finite_point (hne : whole ≠ [] ∨ fraction ≠ [])
    (hwhole : ∀ c ∈ whole, c.isDigit = true) (hfraction : ∀ c ∈ fraction, c.isDigit = true)
    (hexponent : readExponent? exponent = some e) :
    readFinite? negative (whole ++ '.' :: (fraction ++ exponent)) =
      some (.finite negative (Nat.ofDigitChars 10 (whole ++ fraction) 0)
        (e - fraction.length)) := by
  obtain ⟨hends, -⟩ := ends_digits_of_read_exponent hexponent
  have hempty : ((whole.map fun c => c.toNat - '0'.toNat).isEmpty &&
      (fraction.map fun c => c.toNat - '0'.toNat).isEmpty) = false := by
    rcases hne with hne | hne <;> simp [hne]
  rw [readFinite?, split_digits_append hwhole fun c hc => by cases hc; decide]
  simp only [splitFraction, split_digits_append hfraction hends, hexponent, hempty,
    ← List.map_append, of_digits_map]
  simp

/-! ## Signs and blanks -/

/-- A text without blanks is not stripped. -/
theorem strip_numeral_eq {text : List Char} (h : ∀ c ∈ text, isNumeralBlank c = false) :
    stripNumeral text = text := by
  have hdrop {text : List Char} (h : ∀ c ∈ text, isNumeralBlank c = false) :
      text.dropWhile isNumeralBlank = text := by
    cases text with
    | nil => rfl
    | cons c rest => rw [List.dropWhile_cons, if_neg (by simp [h c (by simp)])]
  rw [stripNumeral, hdrop h, hdrop (fun c hc => h c (List.mem_reverse.mp hc)), List.reverse_reverse]

/-- The first characters of a numeral without a sign. -/
def StartsNumeral (text : List Char) : Prop :=
  ∃ c rest, text = c :: rest ∧ (c.isDigit = true ∨ c = '.')

/-- The lower case of a digit or a point is the character itself. -/
theorem to_lower_eq {c : Char} (h : c.isDigit = true ∨ c = '.') : c.toLower = c := by
  rcases h with h | rfl
  · rw [is_digit_iff] at h
    have hupper : ¬ (c.val ≥ 'A'.val ∧ c.val ≤ 'Z'.val) := fun hupper => by
      have hlow : 65 ≤ c.toNat := hupper.1
      omega
    exact dif_neg hupper
  · decide

/-- A text that starts with a digit or a point is no name of a special number. -/
theorem not_is_named {text : List Char} (h : StartsNumeral text) {name : String} {d : Char}
    (hname : name.toList.head? = some d) (hd : d.isDigit = false ∧ d ≠ '.') :
    isNamed name text = false := by
  obtain ⟨c, rest, rfl, hc⟩ := h
  obtain ⟨ds, hds⟩ := List.head?_eq_some_iff.mp hname
  rw [isNamed, hds, List.map_cons, to_lower_eq hc, List.cons_beq_cons, Bool.and_eq_false_imp]
  intro heq
  rw [eq_of_beq heq] at hc
  rcases hc with hc | hc
  · rw [hd.1] at hc
    cases hc
  · exact absurd hc hd.2

/-- A numeral without a sign is not split. -/
theorem split_sign_of_starts {text : List Char} (h : StartsNumeral text) :
    splitSign text = (false, text) := by
  obtain ⟨c, rest, rfl, hc⟩ := h
  unfold splitSign
  split
  case h_1 heq =>
    obtain ⟨rfl, -⟩ := List.cons.inj heq
    simp at hc
  case h_2 heq =>
    obtain ⟨rfl, -⟩ := List.cons.inj heq
    simp at hc
  case h_3 => rfl

/-- A numeral is read with the sign in front of it. -/
theorem read_signed (negative : Bool) {text : List Char} (hstart : StartsNumeral text)
    (hblank : ∀ c ∈ text, isNumeralBlank c = false) :
    Numeral.read? (String.ofList (withSign negative text)) = readFinite? negative text := by
  have hsigned : ∀ c ∈ withSign negative text, isNumeralBlank c = false := by
    cases negative with
    | true => exact List.forall_mem_cons.mpr ⟨by decide, hblank⟩
    | false => exact hblank
  have hsplit : splitSign (withSign negative text) = (negative, text) := by
    cases negative with
    | true => rfl
    | false => exact split_sign_of_starts hstart
  have hinf : isNamed "inf" text = false := not_is_named (d := 'i') hstart (by simp) (by decide)
  have hinfinity : isNamed "infinity" text = false :=
    not_is_named (d := 'i') hstart (by simp) (by decide)
  have hnan : isNamed "nan" text = false := not_is_named (d := 'n') hstart (by simp) (by decide)
  rw [Numeral.read?, String.toList_ofList, strip_numeral_eq hsigned, hsplit]
  simp only [hinf, hinfinity, hnan]
  rfl

/-! ## Spellings -/

/-- A character that is dropped neither as a blank nor as a separator. -/
def IsPlain (c : Char) : Prop :=
  isNumeralBlank c = false ∧ c ≠ '_'

instance : DecidablePred IsPlain :=
  fun _ => inferInstanceAs (Decidable (_ ∧ _))

/-- A character is plain if it is below the blanks of Unicode and neither an ASCII blank nor a
separator. -/
theorem is_plain_of_range {c : Char} (h : 32 < c.toNat ∧ c.toNat < 127) (hne : c.toNat ≠ 95) :
    IsPlain c := by
  have hblank : Text.isBlank c = false := by
    simp [Text.isBlank]
    omega
  refine ⟨by rw [isNumeralBlank, hblank, Bool.false_and], ?_⟩
  rintro rfl
  exact hne rfl

/-- A digit is plain. -/
theorem is_plain_of_is_digit {c : Char} (h : c.isDigit = true) : IsPlain c := by
  rw [is_digit_iff] at h
  exact is_plain_of_range (by omega) (by omega)

/-- The parts of a numeral without a sign: digits, the digits behind a point if there is one, and
the text of an exponent. -/
structure Spelling where
  whole : List Char
  fraction : Option (List Char)
  exponent : List Char

namespace Spelling

/-- The digits behind the point. -/
def fractionDigits (s : Spelling) : List Char :=
  s.fraction.getD []

/-- How the parts are written. -/
def text (s : Spelling) : List Char :=
  s.whole ++ (s.fraction.elim [] ('.' :: ·) ++ s.exponent)

/-- A spelling has a digit, and its exponent is the given one. -/
structure IsValid (s : Spelling) (e : ℤ) : Prop where
  some_digit : s.whole ≠ [] ∨ s.fractionDigits ≠ []
  whole_digit : ∀ c ∈ s.whole, c.isDigit = true
  fraction_digit : ∀ c ∈ s.fractionDigits, c.isDigit = true
  reads : readExponent? s.exponent = some e
  plain : ∀ c ∈ s.exponent, IsPlain c

variable {s : Spelling} {e : ℤ}

/-- The digits of a spelling are read with its exponent. -/
theorem IsValid.read_finite (h : s.IsValid e) (negative : Bool) :
    readFinite? negative s.text =
      some (.finite negative (Nat.ofDigitChars 10 (s.whole ++ s.fractionDigits) 0)
        (e - s.fractionDigits.length)) := by
  obtain ⟨whole, fraction, exponent⟩ := s
  obtain ⟨hsome, hwhole, hfraction, hreads, -⟩ := h
  cases fraction with
  | some fraction => exact read_finite_point negative hsome hwhole hfraction hreads
  | none =>
      have hne : whole ≠ [] := hsome.resolve_right fun hne => hne rfl
      have hread := read_finite_whole negative hne hwhole hreads
      simpa [text, fractionDigits] using hread

/-- A spelling starts with a digit or a point. -/
theorem IsValid.starts (h : s.IsValid e) : StartsNumeral s.text := by
  obtain ⟨whole, fraction, exponent⟩ := s
  obtain ⟨hsome, hwhole, -, -, -⟩ := h
  cases whole with
  | cons c rest => exact ⟨c, _, rfl, .inl (hwhole c List.mem_cons_self)⟩
  | nil =>
      cases fraction with
      | some fraction => exact ⟨'.', _, rfl, .inr rfl⟩
      | none => exact absurd rfl (hsome.resolve_left fun hne => hne rfl)

/-- Nothing of a spelling is dropped. -/
theorem IsValid.plain_text (h : s.IsValid e) : ∀ c ∈ s.text, IsPlain c := by
  obtain ⟨whole, fraction, exponent⟩ := s
  obtain ⟨-, hwhole, hfraction, -, hplain⟩ := h
  rw [text, List.forall_mem_append, List.forall_mem_append]
  refine ⟨fun c hc => is_plain_of_is_digit (hwhole c hc), ?_, hplain⟩
  cases fraction with
  | some fraction =>
      exact List.forall_mem_cons.mpr ⟨by decide, fun c hc => is_plain_of_is_digit (hfraction c hc)⟩
  | none => exact fun _ hc => absurd hc List.not_mem_nil

/-- A spelling is read with the sign in front of it. -/
theorem IsValid.read (h : s.IsValid e) (negative : Bool) :
    Numeral.read? (String.ofList (withSign negative s.text)) =
      some (.finite negative (Nat.ofDigitChars 10 (s.whole ++ s.fractionDigits) 0)
        (e - s.fractionDigits.length)) :=
  (read_signed negative h.starts fun c hc => (h.plain_text c hc).1).trans (h.read_finite negative)

/-- A spelling has no separators to be dropped. -/
theorem IsValid.drop_separators (h : s.IsValid e) (negative : Bool) :
    dropSeparators (String.ofList (withSign negative s.text)) =
      String.ofList (withSign negative s.text) := by
  have hkept : ∀ c ∈ s.text, (c != '_') = true := fun c hc => bne_iff_ne.mpr (h.plain_text c hc).2
  have hsigned : ∀ c ∈ withSign negative s.text, (c != '_') = true := by
    cases negative with
    | true => exact List.forall_mem_cons.mpr ⟨by decide, hkept⟩
    | false => exact hkept
  rw [dropSeparators, String.toList_ofList, List.filter_eq_self.mpr hsigned]

end Spelling

end TypeSuite.Number
