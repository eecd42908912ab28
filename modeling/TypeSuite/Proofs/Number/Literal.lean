import TypeSuite.Proofs.Compile.Lookups
import TypeSuite.Proofs.Number.Name
import TypeSuite.Proofs.Text.Reading

/-!
# Numeric literals as property names

A numeric property name is a decimal literal or a literal of the radix sixteen, eight or two, with
separators between its digits. It denotes the double-precision number that is nearest to its value.

`literal_names` says that decimal literals are named by the number that they denote, and that
literals of another radix are named by their text, so that the same number has another name there.
-/

namespace TypeSuite.Number

open Magnitude

/-! ## Digits with separators -/

/-- A digit of a radix, where the letters of either case stand for ten and above. -/
def IsDigitOf (radix : ℕ) (c : Char) : Prop :=
  ∃ d < radix, Text.hexValue? c = some d

/-- The number that the digits of a radix denote. -/
def digitsNumber (radix : ℕ) (digits : List Char) : ℕ :=
  digits.foldl (fun n c => radix * n + (Text.hexValue? c).getD 0) 0

/-- Digits of a radix. All of them but the first may have a separator in front. -/
structure Digits (radix : ℕ) where
  first : Char
  rest : List (Bool × Char)
  is_digit : ∀ c ∈ first :: rest.map (·.2), IsDigitOf radix c

variable {radix : ℕ}

/-- The digits themselves. -/
def Digits.chars (digits : Digits radix) : List Char :=
  digits.first :: digits.rest.map (·.2)

/-- The digits with their separators. -/
def Digits.text (digits : Digits radix) : List Char :=
  digits.first :: digits.rest.flatMap fun d => if d.1 then ['_', d.2] else [d.2]

/-- The value of a digit tells its code. -/
theorem hex_value_eq_some {c : Char} {d : ℕ} (h : Text.hexValue? c = some d) :
    (c.isDigit = true ∧ d = c.toNat - '0'.toNat) ∨
      (10 ≤ d ∧ ((65 ≤ c.toNat ∧ c.toNat ≤ 70) ∨ (97 ≤ c.toNat ∧ c.toNat ≤ 102))) := by
  unfold Text.hexValue? at h
  split at h
  case isTrue hc =>
    have hlow : 48 ≤ c.toNat := hc.1
    have hhigh : c.toNat ≤ 57 := hc.2
    exact .inl ⟨(is_digit_iff c).mpr ⟨hlow, hhigh⟩, (Option.some.inj h).symm⟩
  split at h
  case isTrue hc =>
    have hlow : 97 ≤ c.toNat := hc.1
    have hhigh : c.toNat ≤ 102 := hc.2
    obtain rfl := Option.some.inj h
    exact .inr ⟨by omega, .inr ⟨hlow, hhigh⟩⟩
  split at h
  case isTrue hc =>
    have hlow : 65 ≤ c.toNat := hc.1
    have hhigh : c.toNat ≤ 70 := hc.2
    obtain rfl := Option.some.inj h
    exact .inr ⟨by omega, .inl ⟨hlow, hhigh⟩⟩
  case isFalse => cases h

/-- A digit of a radix is plain. -/
theorem IsDigitOf.plain {c : Char} (h : IsDigitOf radix c) : IsPlain c := by
  obtain ⟨d, -, hd⟩ := h
  rcases hex_value_eq_some hd with ⟨hdigit, -⟩ | ⟨-, hletter⟩
  · exact is_plain_of_is_digit hdigit
  · exact is_plain_of_range (by omega) (by omega)

/-- The decimal digits are the ASCII digits. -/
theorem IsDigitOf.is_digit {c : Char} (h : IsDigitOf 10 c) : c.isDigit = true := by
  obtain ⟨d, hlt, hd⟩ := h
  rcases hex_value_eq_some hd with ⟨hdigit, -⟩ | ⟨hle, -⟩
  · exact hdigit
  · omega

/-- Decimal digits denote the number that they are read as. -/
theorem digits_number_ten {digits : List Char} (h : ∀ c ∈ digits, IsDigitOf 10 c) :
    digitsNumber 10 digits = Nat.ofDigitChars 10 digits 0 := by
  refine List.foldl_ext _ _ _ fun n c hc => ?_
  obtain ⟨d, hlt, hd⟩ := h c hc
  rcases hex_value_eq_some hd with ⟨-, rfl⟩ | ⟨hle, -⟩
  · rw [hd]
    rfl
  · omega

/-- Without its separators, a text of digits is the digits themselves. -/
theorem filter_digits_text (digits : Digits radix) :
    digits.text.filter (· != '_') = digits.chars := by
  have hplain : ∀ c ∈ digits.chars, (c != '_') = true := fun c hc =>
    bne_iff_ne.mpr (digits.is_digit c hc).plain.2
  have hrest (rest : List (Bool × Char)) (h : ∀ d ∈ rest, (d.2 != '_') = true) :
      (rest.flatMap fun d => if d.1 then ['_', d.2] else [d.2]).filter (· != '_') =
        rest.map (·.2) := by
    induction rest with
    | nil => rfl
    | cons d rest ih =>
        rw [List.forall_mem_cons] at h
        rw [List.flatMap_cons, List.filter_append, ih h.2, List.map_cons]
        cases d.1 <;> simp [h.1]
  rw [Digits.chars, List.forall_mem_cons, List.forall_mem_map] at hplain
  rw [Digits.text, List.filter_cons, if_pos hplain.1, hrest _ hplain.2, Digits.chars]

/-! ## Literals -/

/-- Decimal digits in front of a point. A zero stands alone. -/
structure WholeDigits extends Digits 10 where
  zero_alone : first = '0' → rest = []

/-- The digits of a decimal literal with its point. -/
inductive Significand where
  | whole (whole : WholeDigits)
  | pointed (whole : WholeDigits) (fraction : Option (Digits 10))
  | leading (fraction : Digits 10)

/-- The exponent of a decimal literal, whose sign may be a minus, a plus or absent. -/
structure Exponent where
  upper : Bool
  negative : Option Bool
  digits : Digits 10

/-- The radixes of literals that are not decimal. -/
inductive Radix where
  | hexadecimal
  | octal
  | binary
deriving DecidableEq

/-- The number of digits of a radix. -/
def Radix.base : Radix → ℕ
  | hexadecimal => 16
  | octal => 8
  | binary => 2

/-- The mark of a radix, in either case. -/
def Radix.mark : Radix → Bool → Char
  | hexadecimal, upper => if upper then 'X' else 'x'
  | octal, upper => if upper then 'O' else 'o'
  | binary, upper => if upper then 'B' else 'b'

/-- A numeric literal: a decimal one, or one with the mark of another radix. -/
inductive Literal where
  | decimal (significand : Significand) (exponent : Option Exponent)
  | marked (radix : Radix) (upper : Bool) (digits : Digits radix.base)

/-- The digits in front of the point. -/
def Significand.wholeChars : Significand → List Char
  | whole w | pointed w _ => w.chars
  | leading _ => []

/-- The digits behind the point, if there is one. -/
def Significand.fraction? : Significand → Option (List Char)
  | whole _ => none
  | pointed _ fraction => some (fraction.elim [] Digits.chars)
  | leading fraction => some fraction.chars

/-- The digits behind the point. -/
def Significand.fractionChars (s : Significand) : List Char :=
  s.fraction?.getD []

/-- Digits with their point, where the runs of digits are written in a given way. -/
def Significand.write (run : Digits 10 → List Char) : Significand → List Char
  | whole w => run w.toDigits
  | pointed w fraction => run w.toDigits ++ '.' :: fraction.elim [] run
  | leading fraction => '.' :: run fraction

/-- The sign of an exponent. -/
def Exponent.sign (e : Exponent) : List Char :=
  match e.negative with
  | none => []
  | some negative => [if negative then '-' else '+']

/-- An exponent with its mark, where the run of digits is written in a given way. -/
def Exponent.write (run : Digits 10 → List Char) (e : Exponent) : List Char :=
  (if e.upper then 'E' else 'e') :: (e.sign ++ run e.digits)

/-- The number that an exponent denotes. -/
def Exponent.value (e : Exponent) : ℤ :=
  if e.negative = some true then -(digitsNumber 10 e.digits.chars : ℤ)
  else digitsNumber 10 e.digits.chars

namespace Literal

/-- A decimal literal, where the runs of digits are written in a given way. -/
def writeDecimal (run : Digits 10 → List Char) (significand : Significand)
    (exponent : Option Exponent) : List Char :=
  significand.write run ++ exponent.elim [] (Exponent.write run)

/-- How a literal is written. -/
def text : Literal → String
  | decimal significand exponent => String.ofList (writeDecimal Digits.text significand exponent)
  | marked radix upper digits => String.ofList ('0' :: radix.mark upper :: digits.text)

/-- The exact value of a literal. -/
def value : Literal → ℚ
  | decimal significand exponent =>
    (digitsNumber 10 (significand.wholeChars ++ significand.fractionChars) : ℚ) *
      10 ^ (exponent.elim 0 Exponent.value - significand.fractionChars.length)
  | marked radix _ digits => digitsNumber radix.base digits.chars

/-- A literal denotes the double-precision number that its value is rounded to; the ones that are
too large denote infinity. -/
def Denotes (l : Literal) (number : Option Magnitude) : Prop :=
  Rounds l.value number

/-- A literal without the mark of another radix. -/
def isDecimal : Literal → Bool
  | decimal _ _ => true
  | marked _ _ _ => false

/-- The node of a property name. -/
def node (l : Literal) : Node :=
  .numericLiteral l.text

end Literal

/-! ## Reading literals -/

/-- Without its separators, the text of a decimal literal has the digits alone in it. -/
theorem drop_separators_decimal (significand : Significand) (exponent : Option Exponent) :
    dropSeparators (Literal.decimal significand exponent).text =
      String.ofList (Literal.writeDecimal Digits.chars significand exponent) := by
  have hexponent (e : Exponent) :
      (e.write Digits.text).filter (· != '_') = e.write Digits.chars := by
    have hsign : e.sign.filter (· != '_') = e.sign := by
      unfold Exponent.sign
      split
      · rfl
      · split <;> rfl
    have hmark : ((if e.upper then 'E' else 'e') != '_') = true := by split <;> rfl
    rw [Exponent.write, List.filter_cons, if_pos hmark, List.filter_append, hsign,
      filter_digits_text, Exponent.write]
  have hsignificand : (significand.write Digits.text).filter (· != '_') =
      significand.write Digits.chars := by
    cases significand with
    | whole w => exact filter_digits_text _
    | pointed w fraction =>
        cases fraction <;> simp [Significand.write, filter_digits_text]
    | leading fraction => simp [Significand.write, filter_digits_text]
  rw [dropSeparators, Literal.text, String.toList_ofList, Literal.writeDecimal, List.filter_append,
    hsignificand, Literal.writeDecimal]
  cases exponent with
  | none => rfl
  | some e => rw [Option.elim_some, Option.elim_some, hexponent]

/-- The digits of a run are ASCII digits, and there are some. -/
theorem digits_chars_ten (digits : Digits 10) :
    digits.chars ≠ [] ∧ (∀ c ∈ digits.chars, c.isDigit = true) ∧
      digitsNumber 10 digits.chars = Nat.ofDigitChars 10 digits.chars 0 :=
  ⟨List.cons_ne_nil _ _, fun c hc => (digits.is_digit c hc).is_digit,
    digits_number_ten digits.is_digit⟩

/-- The exponent of a literal is read as its value. -/
theorem read_exponent_write (e : Exponent) :
    readExponent? (e.write Digits.chars) = some e.value := by
  obtain ⟨hne, hdigits, hnumber⟩ := digits_chars_ten e.digits
  have hmark : (if e.upper then 'E' else 'e') = 'e' ∨ (if e.upper then 'E' else 'e') = 'E' := by
    cases e.upper
    · exact .inl rfl
    · exact .inr rfl
  have hsign : splitSign (e.sign ++ e.digits.chars) =
      (e.negative == some true, e.digits.chars) := by
    unfold Exponent.sign
    split
    case h_1 hnegative =>
      rw [hnegative]
      exact split_sign_of_starts ⟨_, _, rfl, .inl (hdigits _ List.mem_cons_self)⟩
    case h_2 negative hnegative =>
      rw [hnegative]
      cases negative <;> rfl
  rw [Exponent.write, read_exponent_marked hmark hsign hne hdigits, ← hnumber, Exponent.value]
  simp only [beq_iff_eq]

/-- The digits of a significand are decimal digits. -/
theorem significand_is_digit (significand : Significand) :
    ∀ c ∈ significand.wholeChars ++ significand.fractionChars, IsDigitOf 10 c := by
  intro c hc
  rw [List.mem_append] at hc
  cases significand with
  | whole w => exact w.is_digit c (hc.resolve_right List.not_mem_nil)
  | pointed w fraction =>
      rcases hc with hc | hc
      · exact w.is_digit c hc
      · cases fraction with
        | some fraction => exact fraction.is_digit c hc
        | none => exact absurd hc List.not_mem_nil
  | leading fraction => exact fraction.is_digit c (hc.resolve_left List.not_mem_nil)

/-- The exponent of a literal is written with plain characters. -/
theorem exponent_write_plain (e : Exponent) : ∀ c ∈ e.write Digits.chars, IsPlain c := by
  rw [Exponent.write, List.forall_mem_cons, List.forall_mem_append]
  refine ⟨by split <;> decide, ?_, fun c hc => (e.digits.is_digit c hc).plain⟩
  unfold Exponent.sign
  split
  · exact fun _ hc => absurd hc List.not_mem_nil
  · rw [List.forall_mem_singleton]
    split <;> decide

/-- The parts of a decimal literal. -/
def Literal.spelling (significand : Significand) (exponent : Option Exponent) : Spelling :=
  ⟨significand.wholeChars, significand.fraction?,
    exponent.elim [] (Exponent.write Digits.chars)⟩

/-- Without its separators, a decimal literal is written by its parts. -/
theorem write_decimal_eq (significand : Significand) (exponent : Option Exponent) :
    Literal.writeDecimal Digits.chars significand exponent =
      (Literal.spelling significand exponent).text := by
  cases significand with
  | whole w => rfl
  | pointed w fraction =>
      exact List.append_assoc w.chars ('.' :: fraction.elim [] Digits.chars) _
  | leading fraction => rfl

/-- A decimal literal is spelled with its exponent. -/
theorem spelling_is_valid (significand : Significand) (exponent : Option Exponent) :
    (Literal.spelling significand exponent).IsValid (exponent.elim 0 Exponent.value) := by
  have hall := significand_is_digit significand
  rw [List.forall_mem_append] at hall
  refine ⟨?_, fun c hc => (hall.1 c hc).is_digit, fun c hc => (hall.2 c hc).is_digit, ?_, ?_⟩
  · cases significand with
    | whole w => exact .inl (List.cons_ne_nil _ _)
    | pointed w fraction => exact .inl (List.cons_ne_nil _ _)
    | leading fraction => exact .inr (List.cons_ne_nil _ _)
  · cases exponent with
    | some e => exact read_exponent_write e
    | none => exact read_exponent_nil
  · cases exponent with
    | some e => exact exponent_write_plain e
    | none => exact fun _ hc => absurd hc List.not_mem_nil

/-- A decimal literal is read as a numeral of its value. -/
theorem read_decimal (significand : Significand) (exponent : Option Exponent) :
    ∃ (c : ℕ) (e : ℤ), Numeral.read? (dropSeparators (Literal.decimal significand exponent).text) =
        some (.finite false c e) ∧
      (Literal.decimal significand exponent).value = (c : ℚ) * 10 ^ e := by
  refine ⟨_, _, ?_, rfl⟩
  rw [drop_separators_decimal, write_decimal_eq,
    digits_number_ten (significand_is_digit significand)]
  exact (spelling_is_valid significand exponent).read false

/-- A literal with the mark of another radix is not read. -/
theorem read_marked (radix : Radix) (upper : Bool) (digits : Digits radix.base) :
    Numeral.read? (dropSeparators (Literal.marked radix upper digits).text) = none := by
  have hmark : isNumeralBlank (radix.mark upper) = false ∧ (radix.mark upper != '_') = true ∧
      Text.digitValue? (radix.mark upper) = none ∧ radix.mark upper ≠ '.' ∧
      (radix.mark upper == 'e' || radix.mark upper == 'E') = false := by
    cases radix <;> cases upper <;> decide
  obtain ⟨hblank, hkept, hvalue, hpoint, hexponent⟩ := hmark
  have htext : dropSeparators (Literal.marked radix upper digits).text =
      String.ofList ('0' :: radix.mark upper :: digits.chars) := by
    rw [dropSeparators, Literal.text, String.toList_ofList, List.filter_cons, if_pos (by decide),
      List.filter_cons, if_pos hkept, filter_digits_text]
  have hplain : ∀ c ∈ '0' :: radix.mark upper :: digits.chars, isNumeralBlank c = false := by
    rw [List.forall_mem_cons, List.forall_mem_cons]
    exact ⟨by decide, hblank, fun c hc => (digits.is_digit c hc).plain.1⟩
  rw [htext]
  refine (read_signed false ⟨'0', _, rfl, .inl (by decide)⟩ hplain).trans ?_
  have hzero : ∀ c ∈ ['0'], c.isDigit = true := List.forall_mem_singleton.mpr (by decide)
  have hends : EndsDigits (radix.mark upper :: digits.chars) := fun c hc => by
    rw [← Option.mem_some.mp hc]
    exact hvalue
  have hsplit := split_digits_append hzero hends
  rw [List.singleton_append] at hsplit
  rw [readFinite?, hsplit]
  simp only [split_fraction_of_ne hpoint, readExponent?, hexponent]
  rfl

/-! ## Names of literals -/

/-- The name of a numeric property. -/
def Literal.name (l : Literal) : String :=
  canonicalName l.text

/-- Two literals denote the same double-precision number. -/
def SameNumber (a b : Literal) : Prop :=
  ∃ number, a.Denotes number ∧ b.Denotes number

/-- A decimal literal is read as the number that it denotes. -/
theorem of_text_decimal {l : Literal} (h : l.isDecimal = true) : ∃ number, l.Denotes number ∧
    Binary64.ofText? l.text = some (number.elim (.infinite false) (.finite false)) := by
  cases l with
  | decimal significand exponent =>
      obtain ⟨c, e, hread, hvalue⟩ := read_decimal significand exponent
      refine ⟨ofDecimal? c e, ?_, ?_⟩
      · rw [Literal.Denotes, hvalue]
        exact of_decimal_rounds c e
      · rw [Binary64.ofText?, hread, Option.map_some, Binary64.ofNumeral]
        cases ofDecimal? c e <;> rfl
  | marked radix upper digits => cases h

/-- A literal of another radix is not read, and is named by its text. -/
theorem of_text_marked {l : Literal} (h : l.isDecimal = false) :
    Binary64.ofText? l.text = none := by
  cases l with
  | decimal significand exponent => cases h
  | marked radix upper digits =>
      rw [Binary64.ofText?, read_marked]
      rfl

/-- Numbers without a sign have the same name only if they are the same. -/
theorem eq_of_unsigned_name {number number' : Option Magnitude} {x y : ℚ} (h : Rounds x number)
    (h' : Rounds y number')
    (hname : (number.elim (.infinite false) (.finite false) : Binary64).name =
      (number'.elim (.infinite false) (.finite false) : Binary64).name) : number = number' := by
  have hcanonical {number : Option Magnitude} {x : ℚ} (h : Rounds x number) :
      (number.elim (.infinite false) (.finite false) : Binary64).IsCanonical := by
    cases number with
    | some m => exact h.1
    | none => trivial
  have hvalue := value_eq_of_name (hcanonical h) (hcanonical h') hname
  cases number with
  | some m =>
      cases number' with
      | some m' =>
          exact congrArg some
            (eq_of_value h.1.toIsRegular h'.1.toIsRegular (Option.some_inj.mp hvalue))
      | none => cases hvalue
  | none =>
      cases number' with
      | some m' => cases hvalue
      | none => rfl

/-- The value of a literal is not negative. -/
theorem Literal.value_nonneg (l : Literal) : 0 ≤ l.value := by
  cases l with
  | decimal significand exponent =>
      rw [Literal.value]
      positivity
  | marked radix upper digits =>
      rw [Literal.value]
      positivity

/-- Decimal literals have the same name exactly if they denote the same number. -/
theorem decimal_name_eq_iff {a b : Literal} (ha : a.isDecimal = true) (hb : b.isDecimal = true) :
    a.name = b.name ↔ SameNumber a b := by
  obtain ⟨x, hx, hreadx⟩ := of_text_decimal ha
  obtain ⟨y, hy, hready⟩ := of_text_decimal hb
  rw [Literal.name, Literal.name, canonical_name_of_read hreadx, canonical_name_of_read hready]
  constructor
  · intro hname
    obtain rfl := eq_of_unsigned_name hx hy hname
    exact ⟨x, hx, hy⟩
  · rintro ⟨number, hax, hby⟩
    rw [Rounds.unique a.value_nonneg hx hax, Rounds.unique b.value_nonneg hy hby]

/-- A decimal literal and a literal of another radix have different names and different texts. -/
theorem marked_name_ne {a b : Literal} (ha : a.isDecimal = true) (hb : b.isDecimal = false) :
    a.name ≠ b.name ∧ a.text ≠ b.text := by
  obtain ⟨x, -, hreadx⟩ := of_text_decimal ha
  have hreadb := of_text_marked hb
  constructor
  · intro hname
    -- The name of a decimal literal is a numeral, the other one is not.
    obtain ⟨c, hread, -⟩ := read_back (of_text_canonical hreadx)
    rw [← canonical_name_of_read hreadx] at hread
    change Binary64.ofText? a.name = some c at hread
    rw [hname, Literal.name, canonical_name_of_none hreadb, hreadb] at hread
    cases hread
  · intro htext
    rw [htext, hreadb] at hreadx
    cases hreadx

/-- Literals have the same name exactly if they have the same text, or are both decimal and denote
the same number. -/
theorem name_eq_iff_same_number (a b : Literal) : a.name = b.name ↔
    a.text = b.text ∨ (a.isDecimal = true ∧ b.isDecimal = true ∧ SameNumber a b) := by
  have hsame (h : a.text = b.text) : a.name = b.name := congrArg canonicalName h
  cases ha : a.isDecimal <;> cases hb : b.isDecimal
  case true.true =>
    refine ⟨fun h => .inr ⟨rfl, rfl, (decimal_name_eq_iff ha hb).mp h⟩, fun h => ?_⟩
    rcases h with h | ⟨-, -, h⟩
    · exact hsame h
    · exact (decimal_name_eq_iff ha hb).mpr h
  case true.false =>
    obtain ⟨hname, htext⟩ := marked_name_ne ha hb
    simp [hname, htext]
  case false.true =>
    obtain ⟨hname, htext⟩ := marked_name_ne hb ha
    simp [hname.symm, htext.symm]
  case false.false =>
    rw [Literal.name, Literal.name, canonical_name_of_none (of_text_marked ha),
      canonical_name_of_none (of_text_marked hb)]
    simp

/-- In a session, two numeric property names have the same name exactly if they have the same text,
or are both decimal and denote the same number. Literals of another radix are told apart by their
text, even where they denote the same number. -/
theorem literal_names (asked : List Node) (a b : Literal) :
    ∃ answers x y, (Resolver.session (asked ++ [a.node, b.node])).1 = answers ++ [some x, some y] ∧
      (x = y ↔ a.text = b.text ∨ (a.isDecimal = true ∧ b.isDecimal = true ∧ SameNumber a b)) := by
  obtain ⟨hanswers, -⟩ := Resolver.remembers_nil.run (asked ++ [a.node, b.node])
  refine ⟨asked.map Resolver.declaredName?, a.name, b.name, ?_, name_eq_iff_same_number a b⟩
  rw [Resolver.session, hanswers, List.map_append]
  rfl

/-- Sixteen in hexadecimal digits. -/
def hexadecimalSixteen : Literal :=
  .marked .hexadecimal false ⟨'1', [(false, '0')], by simp [IsDigitOf, Text.hexValue?, Radix.base]⟩

/-- Sixteen in decimal digits. -/
def decimalSixteen : Literal :=
  .decimal (.whole ⟨⟨'1', [(false, '6')], by simp [IsDigitOf, Text.hexValue?]⟩, by decide⟩) none

/-- Sixteen has two names, although both literals denote the same number. -/
theorem sixteen_named_twice : SameNumber hexadecimalSixteen decimalSixteen ∧
    hexadecimalSixteen.text = "0x10" ∧ decimalSixteen.text = "16" ∧
    (Resolver.session [hexadecimalSixteen.node, decimalSixteen.node]).1 =
      [some "0x10", some "16"] := by
  have hrounds := of_decimal_rounds 16 0
  rw [zpow_zero, mul_one] at hrounds
  have hhex : hexadecimalSixteen.value = ((16 : ℕ) : ℚ) := by
    have hdigits : digitsNumber 16 ['1', '0'] = 16 := by decide
    exact congrArg Nat.cast hdigits
  have hdecimal : decimalSixteen.value = ((16 : ℕ) : ℚ) := by
    have hdigits : digitsNumber 10 ['1', '6'] = 16 := by decide
    change (digitsNumber 10 ['1', '6'] : ℚ) * 10 ^ (0 : ℤ) = _
    rw [hdigits, zpow_zero, mul_one]
  have hsame : SameNumber hexadecimalSixteen decimalSixteen := by
    refine ⟨ofDecimal? 16 0, ?_, ?_⟩
    · rw [Literal.Denotes, hhex]
      exact hrounds
    · rw [Literal.Denotes, hdecimal]
      exact hrounds
  exact ⟨hsame, by decide, by decide, by decide +kernel⟩

end TypeSuite.Number
