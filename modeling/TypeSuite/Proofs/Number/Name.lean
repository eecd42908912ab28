import TypeSuite.Number.Name
import TypeSuite.Proofs.Number.Numeral
import TypeSuite.Proofs.Number.Shortest

/-!
# Canonical names of numbers

A name is spelled so that it is read back as the number that it names (`read_back`).
`canonical_name_faithful` draws the consequences: two numeric texts have the same name exactly if
they are read as equal numbers, a name is its own name, and naming never fails.
-/

namespace TypeSuite.Number

open Magnitude

/-! ## Texts of decimals -/

/-- The digits of a number are ASCII digits. -/
theorem to_digits_is_digit (n : ℕ) : ∀ c ∈ Nat.toDigits 10 n, c.isDigit = true := fun _ hc =>
  Nat.isDigit_of_mem_toDigits (by norm_num) le_rfl hc

/-- The text of an exponent is a sign with the digits of its magnitude. -/
theorem exponent_text_eq (e : ℤ) :
    ∃ digits, exponentText e = (if e < 0 then '-' else '+') :: digits ∧ digits ≠ [] ∧
      (∀ c ∈ digits, c.isDigit = true) ∧ Nat.ofDigitChars 10 digits 0 = e.natAbs := by
  unfold exponentText
  extract_lets digits
  refine ⟨_, rfl, ?_⟩
  have hdigits : ∀ c ∈ digits, c.isDigit = true := to_digits_is_digit e.natAbs
  have hvalue : Nat.ofDigitChars 10 digits 0 = e.natAbs := Nat.ofDigitChars_ten_toDigits
  have hpos : 0 < digits.length := Nat.length_toDigits_pos
  split
  · refine ⟨List.cons_ne_nil _ _, List.forall_mem_cons.mpr ⟨by decide, hdigits⟩, ?_⟩
    rw [Nat.ofDigitChars_cons]
    exact hvalue
  · exact ⟨List.ne_nil_of_length_pos hpos, hdigits, hvalue⟩

/-- An exponent is read back from its text. -/
theorem read_exponent_text (e : ℤ) : readExponent? ('e' :: exponentText e) = some e := by
  obtain ⟨digits, htext, hne, hdigits, hvalue⟩ := exponent_text_eq e
  rw [htext]
  split
  case isTrue hneg =>
    have hsign : splitSign ('-' :: digits) = (true, digits) := rfl
    rw [read_exponent_marked (.inl rfl) hsign hne hdigits, hvalue, if_pos rfl]
    congr 1
    omega
  case isFalse hpos =>
    have hsign : splitSign ('+' :: digits) = (false, digits) := rfl
    rw [read_exponent_marked (.inl rfl) hsign hne hdigits, hvalue, if_neg Bool.false_ne_true]
    congr 1
    omega

/-- A decimal that can be written with its digits alone: it has some, and one of them is behind the
point. -/
structure Decimal.IsWritable (d : Decimal) : Prop where
  ne_nil : d.digits ≠ []
  is_digit : ∀ c ∈ d.digits, c.isDigit = true
  point_lt : d.point < d.digits.length

/-- Zeros in front of digits do not count. -/
theorem of_digit_chars_zeros (n : ℕ) (digits : List Char) :
    Nat.ofDigitChars 10 (List.replicate n '0' ++ digits) 0 = Nat.ofDigitChars 10 digits 0 := by
  rw [Nat.ofDigitChars_append, Nat.ofDigitChars_replicate_zero, Nat.mul_zero]

/-- An exponent is written with plain characters. -/
theorem exponent_text_plain (e : ℤ) : ∀ c ∈ 'e' :: exponentText e, IsPlain c := by
  obtain ⟨digits, htext, -, hdigits, -⟩ := exponent_text_eq e
  rw [htext, List.forall_mem_cons, List.forall_mem_cons]
  exact ⟨by decide, by split <;> decide, fun c hc => is_plain_of_is_digit (hdigits c hc)⟩

/-- A decimal is spelled with its digits and the exponent that they need. -/
theorem decimal_spelling {d : Decimal} (hd : d.IsWritable) :
    ∃ (s : Spelling) (e : ℤ), s.IsValid e ∧ d.text = s.text ∧
      Nat.ofDigitChars 10 (s.whole ++ s.fractionDigits) 0 = Nat.ofDigitChars 10 d.digits 0 ∧
      e - s.fractionDigits.length = d.point - d.digits.length := by
  obtain ⟨hne, hdigits, hpoint⟩ := hd
  have hreads := read_exponent_text (d.point - 1)
  have hplain := exponent_text_plain (d.point - 1)
  have hnil : ∀ c ∈ [], IsPlain c := fun _ hc => absurd hc List.not_mem_nil
  obtain ⟨digits, point⟩ := d
  simp only [Decimal.text] at hne hdigits hpoint hreads hplain ⊢
  split
  case isTrue =>
    split
    case isTrue hle =>
      -- Zeros stand between the point and the digits.
      have hzero : ∀ c ∈ ['0'], c.isDigit = true := List.forall_mem_singleton.mpr (by decide)
      have hfraction : ∀ c ∈ List.replicate (-point).toNat '0' ++ digits, c.isDigit = true :=
        List.forall_mem_append.mpr
          ⟨fun c hc => List.eq_of_mem_replicate hc ▸ by decide, hdigits⟩
      refine ⟨⟨['0'], some (List.replicate (-point).toNat '0' ++ digits), []⟩, 0,
        ⟨.inl (List.cons_ne_nil _ _), hzero, hfraction, read_exponent_nil, hnil⟩, ?_, ?_, ?_⟩
      · simp [Spelling.text]
      · exact of_digit_chars_zeros ((-point).toNat + 1) digits
      · simp only [Spelling.fractionDigits, Option.getD_some, List.length_append,
          List.length_replicate]
        omega
    case isFalse hpos =>
      have hsome : digits.take point.toNat ≠ [] := by
        rw [Ne, List.take_eq_nil_iff, not_or]
        exact ⟨by omega, hne⟩
      refine ⟨⟨digits.take point.toNat, some (digits.drop point.toNat), []⟩, 0,
        ⟨.inl hsome, fun c hc => hdigits c (List.mem_of_mem_take hc),
          fun c hc => hdigits c (List.mem_of_mem_drop hc), read_exponent_nil, hnil⟩, ?_, ?_, ?_⟩
      · simp [Spelling.text]
      · rw [Spelling.fractionDigits, Option.getD_some, List.take_append_drop]
      · simp only [Spelling.fractionDigits, Option.getD_some, List.length_drop]
        omega
  case isFalse =>
    rcases digits with _ | ⟨c, _ | ⟨c', rest⟩⟩
    case nil => exact absurd rfl hne
    case cons.nil =>
      refine ⟨⟨[c], none, 'e' :: exponentText (point - 1)⟩, point - 1,
        ⟨.inl hne, hdigits, fun _ hc => absurd hc List.not_mem_nil, hreads, hplain⟩, rfl, rfl, ?_⟩
      simp [Spelling.fractionDigits]
    case cons.cons =>
      rw [List.forall_mem_cons] at hdigits
      refine ⟨⟨[c], some (c' :: rest), 'e' :: exponentText (point - 1)⟩, point - 1,
        ⟨.inl (List.cons_ne_nil _ _), List.forall_mem_singleton.mpr hdigits.1, hdigits.2, hreads,
          hplain⟩, rfl, rfl, ?_⟩
      simp only [Spelling.fractionDigits, Option.getD_some, List.length_cons]
      omega

/-! ## Reading names back -/

/-- The double-precision number that a text is read as. -/
def Binary64.ofText? (text : String) : Option Binary64 :=
  (Numeral.read? (dropSeparators text)).map Binary64.ofNumeral

/-- The finite number that a double-precision number stands for. -/
def Binary64.value? : Binary64 → Option ℚ
  | .finite negative m => some (if negative then -m.value else m.value)
  | .infinite _ | .undefined => none

/-- A finite double-precision number has a canonical magnitude. -/
def Binary64.IsCanonical : Binary64 → Prop
  | .finite _ m => m.IsCanonical
  | .infinite _ | .undefined => True

/-- A text that is read as a number has the name of this number. -/
theorem canonical_name_of_read {text : String} {b : Binary64} (h : Binary64.ofText? text = some b) :
    canonicalName text = b.name := by
  obtain ⟨numeral, hread, rfl⟩ := Option.map_eq_some_iff.mp h
  rw [canonicalName, hread]

/-- A text that is no numeral names itself. -/
theorem canonical_name_of_none {text : String} (h : Binary64.ofText? text = none) :
    canonicalName text = text := by
  rw [canonicalName, Option.map_eq_none_iff.mp h]

/-- A decimal is read as the magnitude that covers it. -/
theorem of_numeral_eq {m : Magnitude} (hm : m.IsCanonical) {c : ℕ} {e : ℤ}
    (h : m.Covers ((c : ℚ) * 10 ^ e)) (negative : Bool) :
    Binary64.ofNumeral (.finite negative c e) = .finite negative m := by
  rw [Binary64.ofNumeral, (of_decimal_eq_some_iff hm c e).mpr h]

/-- Whatever is read is canonical. -/
theorem of_text_canonical {text : String} {b : Binary64} (h : Binary64.ofText? text = some b) :
    b.IsCanonical := by
  obtain ⟨numeral, -, rfl⟩ := Option.map_eq_some_iff.mp h
  cases numeral with
  | finite negative c e =>
      have hrounds := of_decimal_rounds c e
      rw [Binary64.ofNumeral]
      cases hm : Magnitude.ofDecimal? c e with
      | some m =>
          rw [hm] at hrounds
          exact hrounds.1
      | none => trivial
  | infinite negative => trivial
  | undefined => trivial

/-- A magnitude that is no integer is not zero. -/
theorem mantissa_pos_of_to_nat {m : Magnitude} (h : m.toNat? = none) : 0 < m.mantissa := by
  refine Nat.pos_of_ne_zero fun hzero => ?_
  have hvalue : m.value = (0 : ℕ) := by rw [Magnitude.value, hzero, Nat.cast_zero, zero_mul]
  rw [(to_nat_eq_some_iff m 0).mpr hvalue] at h
  cases h

/-- The shortest decimal of a magnitude that is no integer is writable. -/
theorem shortest_is_writable {m : Magnitude} (hm : m.IsCanonical) (h : m.toNat? = none) :
    m.shortest.IsWritable where
  ne_nil := shortest_digits_ne_nil (mantissa_pos_of_to_nat h) hm.toIsRegular
  is_digit := shortest_digits (mantissa_pos_of_to_nat h) hm.toIsRegular
  point_lt := point_lt_length (mantissa_pos_of_to_nat h) hm.toIsRegular h

/-- The name of an integer is read back as it, without the sign of a zero. -/
theorem read_integer_name {m : Magnitude} (hm : m.IsCanonical) {n : ℕ} (h : m.toNat? = some n)
    (negative : Bool) : Binary64.ofText? (Binary64.finite negative m).name =
      some (.finite (negative && n != 0) m) := by
  have hname : (Binary64.finite negative m).name =
      String.ofList (withSign (negative && n != 0) (Nat.toDigits 10 n)) := by
    rw [Binary64.name, h]
  have hvalid : Spelling.IsValid ⟨Nat.toDigits 10 n, none, []⟩ 0 :=
    ⟨.inl (List.ne_nil_of_length_pos Nat.length_toDigits_pos), to_digits_is_digit n,
      fun _ hc => absurd hc List.not_mem_nil, read_exponent_nil,
      fun _ hc => absurd hc List.not_mem_nil⟩
  have hcovers : m.Covers ((n : ℚ) * 10 ^ (0 : ℤ)) := by
    rw [zpow_zero, mul_one, ← (to_nat_eq_some_iff m n).mp h]
    exact m.covers_value
  have hread := hvalid.read (negative && n != 0)
  have hdrop := hvalid.drop_separators (negative && n != 0)
  simp only [Spelling.text, Spelling.fractionDigits, Option.elim_none, Option.getD_none,
    List.append_nil, Nat.ofDigitChars_ten_toDigits, List.length_nil, Nat.cast_zero,
    sub_zero] at hread hdrop
  rw [hname, Binary64.ofText?, hdrop, hread, Option.map_some, of_numeral_eq hm hcovers]

/-- The name of a finite number that is no integer is read back as it. -/
theorem read_decimal_name {m : Magnitude} (hm : m.IsCanonical) (h : m.toNat? = none)
    (negative : Bool) : Binary64.ofText? (Binary64.finite negative m).name =
      some (.finite negative m) := by
  have hname : (Binary64.finite negative m).name =
      String.ofList (withSign negative m.shortest.text) := by
    rw [Binary64.name, h]
  obtain ⟨s, e, hvalid, htext, hnumber, hexponent⟩ :=
    decimal_spelling (shortest_is_writable hm h)
  have hcovers := shortest_covered (mantissa_pos_of_to_nat h) hm.toIsRegular
  rw [hname, htext, Binary64.ofText?, hvalid.drop_separators, hvalid.read, hnumber, hexponent,
    Option.map_some, of_numeral_eq hm hcovers]

/-- A name is read back as a number of the same value with the same name. -/
theorem read_back {b : Binary64} (hb : b.IsCanonical) :
    ∃ b', Binary64.ofText? b.name = some b' ∧ b'.value? = b.value? ∧ b'.name = b.name := by
  cases b with
  | finite negative m =>
      cases h : m.toNat? with
      | some n =>
          refine ⟨_, read_integer_name hb h negative, ?_, ?_⟩
          · rw [Binary64.value?, Binary64.value?, (to_nat_eq_some_iff m n).mp h]
            cases negative <;> cases n <;> simp
          · rw [Binary64.name, Binary64.name, h]
            simp
      | none => exact ⟨_, read_decimal_name hb h negative, rfl, rfl⟩
  | infinite negative =>
      cases negative
      · exact ⟨.infinite false, by decide, rfl, rfl⟩
      · exact ⟨.infinite true, by decide, rfl, rfl⟩
  | undefined => exact ⟨.undefined, by decide, rfl, rfl⟩

/-- Equal numbers have the same name, whatever the sign of a zero. -/
theorem name_eq_of_value {b b' : Binary64} (hb : b.IsCanonical) (hb' : b'.IsCanonical) {x : ℚ}
    (h : b.value? = some x) (h' : b'.value? = some x) : b.name = b'.name := by
  cases b with
  | finite negative m =>
      cases b' with
      | finite negative' m' =>
          have habs (negative : Bool) (m : Magnitude)
              (h : (Binary64.finite negative m).value? = some x) : m.value = |x| := by
            rw [Binary64.value?, Option.some_inj] at h
            rw [← h]
            split
            · rw [abs_neg, abs_of_nonneg m.value_nonneg]
            · rw [abs_of_nonneg m.value_nonneg]
          have hm : m.value = m'.value := by rw [habs negative m h, habs negative' m' h']
          obtain rfl : m = m' := eq_of_value hb.toIsRegular hb'.toIsRegular hm
          by_cases hsign : negative = negative'
          · rw [hsign]
          · -- Only a zero is equal to its negative.
            have hzero : m.value = (0 : ℕ) := by
              rw [Binary64.value?, Option.some_inj] at h h'
              cases negative <;> cases negative' <;> simp at hsign h h' ⊢ <;> linarith
            rw [Binary64.name, Binary64.name, (to_nat_eq_some_iff m 0).mpr hzero]
            simp
      | infinite negative' => cases h'
      | undefined => cases h'
  | infinite negative => cases h
  | undefined => cases h

/-- Numbers with the same name are equal. -/
theorem value_eq_of_name {b b' : Binary64} (hb : b.IsCanonical) (hb' : b'.IsCanonical)
    (h : b.name = b'.name) : b.value? = b'.value? := by
  obtain ⟨c, hc, hvalue, -⟩ := read_back hb
  obtain ⟨c', hc', hvalue', -⟩ := read_back hb'
  rw [h, hc'] at hc
  rw [← hvalue, ← hvalue', Option.some_inj.mp hc]

/-- Finite numbers have the same name exactly if they are equal. -/
theorem name_eq_iff {b b' : Binary64} (hb : b.IsCanonical) (hb' : b'.IsCanonical) {x y : ℚ}
    (hx : b.value? = some x) (hy : b'.value? = some y) : b.name = b'.name ↔ x = y := by
  constructor
  · intro hname
    rw [← Option.some_inj, ← hx, ← hy]
    exact value_eq_of_name hb hb' hname
  · rintro rfl
    exact name_eq_of_value hb hb' hx hy

/-- A canonical name is its own canonical name. -/
theorem canonical_name_idempotent (text : String) :
    canonicalName (canonicalName text) = canonicalName text := by
  cases h : Binary64.ofText? text with
  | some b =>
      obtain ⟨b', hread, -, hname⟩ := read_back (of_text_canonical h)
      rw [canonical_name_of_read h, canonical_name_of_read hread, hname]
  | none => rw [canonical_name_of_none h, canonical_name_of_none h]

/-! ## Naming with a checked conversion -/

/-- A double-precision number is an integer. -/
def Binary64.isInteger (b : Binary64) : Bool :=
  b.value?.any (·.isInt)

/-- The integer that a double-precision number is truncated to; infinite and undefined numbers have
none. -/
def Binary64.toInt? (b : Binary64) : Option ℤ :=
  b.value?.map fun x => x.num.tdiv x.den

/-- A double-precision number as text: the shortest decimal, or a special name. -/
def Binary64.text : Binary64 → String
  | .undefined => "nan"
  | .infinite negative => String.ofList (withSign negative "inf".toList)
  | .finite negative m => String.ofList (withSign negative m.shortest.text)

/-- The name of a number with an integer conversion that can fail. -/
def Binary64.checkedName? (b : Binary64) : Option String :=
  if b.isInteger then b.toInt?.map toString else some b.text

/-- An integral number is converted to the integer that it is equal to. -/
theorem is_integer_of_value {b : Binary64} {z : ℤ} (h : b.value? = some (z : ℚ)) :
    b.isInteger = true ∧ b.toInt? = some z := by
  constructor
  · rw [Binary64.isInteger, h, Option.any_some, Rat.isInt, Rat.den_intCast]
    rfl
  · rw [Binary64.toInt?, h, Option.map_some, Rat.num_intCast, Rat.den_intCast, Nat.cast_one,
      Int.tdiv_one]

/-- A finite number whose magnitude is no integer is none. -/
theorem not_is_integer {m : Magnitude} (h : m.toNat? = none) (negative : Bool) :
    (Binary64.finite negative m).isInteger = false := by
  by_contra hinteger
  rw [Bool.not_eq_false, Binary64.isInteger, Binary64.value?, Option.any_some, Rat.isInt,
    beq_iff_eq] at hinteger
  have hvalue : m.value = m.value.num.toNat := by
    have hden : m.value.den = 1 := by
      cases negative
      · exact hinteger
      · rwa [if_pos rfl, Rat.neg_den] at hinteger
    have hnum : ((m.value.num.toNat : ℕ) : ℤ) = m.value.num :=
      Int.toNat_of_nonneg (Rat.num_nonneg.mpr m.value_nonneg)
    calc m.value = m.value.num := (Rat.den_eq_one_iff _).mp hden |>.symm
      _ = ((m.value.num.toNat : ℕ) : ℤ) := by rw [hnum]
      _ = m.value.num.toNat := Int.cast_natCast _
  rw [(to_nat_eq_some_iff m _).mpr hvalue] at h
  cases h

/-- An integer as text has a minus if it is negative. -/
theorem int_text (negative : Bool) (n : ℕ) :
    toString (if negative then -(n : ℤ) else n) =
      String.ofList (withSign (negative && n != 0) (Nat.toDigits 10 n)) := by
  cases negative with
  | false => exact Nat.repr_eq_ofList_toDigits
  | true =>
      cases n with
      | zero => rfl
      | succ n =>
          change "-" ++ Nat.repr (n + 1) = String.ofList (['-'] ++ Nat.toDigits 10 (n + 1))
          rw [Nat.repr_eq_ofList_toDigits, String.ofList_append]

/-- The integer conversion does not fail where the name needs it. -/
theorem checked_name_eq (b : Binary64) : b.checkedName? = some b.name := by
  cases b with
  | finite negative m =>
      cases h : m.toNat? with
      | some n =>
          have hvalue : (Binary64.finite negative m).value? =
              some ((if negative then -(n : ℤ) else n : ℤ) : ℚ) := by
            rw [Binary64.value?, (to_nat_eq_some_iff m n).mp h]
            cases negative <;> simp
          obtain ⟨hinteger, hint⟩ := is_integer_of_value hvalue
          rw [Binary64.checkedName?, if_pos hinteger, hint, Option.map_some, int_text,
            Binary64.name, h]
      | none =>
          rw [Binary64.checkedName?, if_neg (by rw [not_is_integer h]; exact Bool.false_ne_true),
            Binary64.name, h]
          rfl
  | infinite negative => rfl
  | undefined => rfl

/-- The name of a text with an integer conversion that can fail; a text that is no numeral names
itself. -/
def checkedCanonicalName? (text : String) : Option String :=
  match Binary64.ofText? text with
  | some b => b.checkedName?
  | none => some text

/-- Naming never fails, and only integers are converted. -/
theorem checked_canonical_name_eq (text : String) :
    checkedCanonicalName? text = some (canonicalName text) := by
  cases h : Binary64.ofText? text with
  | some b =>
      rw [checkedCanonicalName?, h, canonical_name_of_read h]
      exact checked_name_eq b
  | none => rw [checkedCanonicalName?, h, canonical_name_of_none h]

/-- What is converted to an integer is equal to it. -/
theorem to_int_of_is_integer {b : Binary64} (h : b.isInteger = true) :
    ∃ z : ℤ, b.toInt? = some z ∧ b.value? = some (z : ℚ) := by
  rw [Binary64.isInteger] at h
  cases hx : b.value? with
  | some x =>
      rw [hx, Option.any_some, Rat.isInt, beq_iff_eq] at h
      have hint : (x.num : ℚ) = x := (Rat.den_eq_one_iff x).mp h
      rw [← hint] at hx
      exact ⟨x.num, (is_integer_of_value hx).2, congrArg some hint.symm⟩
  | none =>
      rw [hx] at h
      cases h

/-! ## Faithful names -/

/-- A finite numeral is read as the nearest double-precision number, or it overflows. -/
theorem of_text_rounds {text : String} {negative : Bool} {c : ℕ} {e : ℤ}
    (h : Numeral.read? (dropSeparators text) = some (.finite negative c e)) :
    (∃ m, Binary64.ofText? text = some (.finite negative m) ∧ m.IsCanonical ∧
        IsNearest m ((c : ℚ) * 10 ^ e) ∧ (c : ℚ) * 10 ^ e < overflowBound) ∨
      (Binary64.ofText? text = some (.infinite negative) ∧ overflowBound ≤ (c : ℚ) * 10 ^ e) := by
  have hrounds := of_decimal_rounds c e
  rw [Binary64.ofText?, h, Option.map_some, Binary64.ofNumeral]
  cases hm : Magnitude.ofDecimal? c e with
  | some m =>
      rw [hm] at hrounds
      exact .inl ⟨m, rfl, hrounds.1, hrounds.2.is_nearest hrounds.1.toIsRegular,
        hrounds.2.lt_overflow_bound hrounds.1⟩
  | none =>
      rw [hm] at hrounds
      exact .inr ⟨rfl, hrounds⟩

/-- Names are faithful and stable. Texts that are read as finite numbers have the same name exactly
if the numbers are equal, a name is its own name, and naming a text with a checked integer
conversion never fails, since only integers are converted. The numbers are those of double
precision: numerals are rounded to the nearest one, and positive numbers are written by the shortest
decimals that are read back as them. -/
theorem canonical_name_faithful :
    (∀ (s t : String) (x y : ℚ), (Binary64.ofText? s).bind Binary64.value? = some x →
      (Binary64.ofText? t).bind Binary64.value? = some y →
      (canonicalName s = canonicalName t ↔ x = y)) ∧
    (∀ t, canonicalName (canonicalName t) = canonicalName t) ∧
    (∀ t, checkedCanonicalName? t = some (canonicalName t)) ∧
    (∀ b : Binary64, b.isInteger = true → ∃ z : ℤ, b.toInt? = some z ∧ b.value? = some (z : ℚ)) ∧
    (∀ t negative c e, Numeral.read? (dropSeparators t) = some (.finite negative c e) →
      (∃ m, Binary64.ofText? t = some (.finite negative m) ∧ m.IsCanonical ∧
          IsNearest m ((c : ℚ) * 10 ^ e) ∧ (c : ℚ) * 10 ^ e < overflowBound) ∨
        (Binary64.ofText? t = some (.infinite negative) ∧ overflowBound ≤ (c : ℚ) * 10 ^ e)) ∧
    ∀ m : Magnitude, m.IsCanonical → 0 < m.mantissa → m.shortest.IsShortest m := by
  refine ⟨fun s t x y hx hy => ?_, canonical_name_idempotent, checked_canonical_name_eq,
    fun _ => to_int_of_is_integer, fun _ _ _ _ => of_text_rounds,
    fun _ hm hpos => shortest_is_shortest hpos hm⟩
  obtain ⟨b, hb, hbx⟩ := Option.bind_eq_some_iff.mp hx
  obtain ⟨c, hc, hcy⟩ := Option.bind_eq_some_iff.mp hy
  rw [canonical_name_of_read hb, canonical_name_of_read hc]
  exact name_eq_iff (of_text_canonical hb) (of_text_canonical hc) hbx hcy

/-- A thousand is named once, however it is spelled, and differs from a half. -/
theorem canonical_name_thousand : canonicalName "1_000.0" = canonicalName "1e3" ∧
    canonicalName "1e3" ≠ canonicalName ".5" := by
  have hpoint : Binary64.ofText? "1_000.0" = some (.finite false ⟨8796093022208000, -43⟩) := by
    decide +kernel
  have hexponent : Binary64.ofText? "1e3" = some (.finite false ⟨8796093022208000, -43⟩) := by
    decide +kernel
  have hhalf : Binary64.ofText? ".5" = some (.finite false ⟨4503599627370496, -53⟩) := by
    decide +kernel
  have hthousand : (Binary64.finite false ⟨8796093022208000, -43⟩).value? = some 1000 := by
    norm_num [Binary64.value?, Magnitude.value]
  have hhalf' : (Binary64.finite false ⟨4503599627370496, -53⟩).value? = some (1 / 2) := by
    norm_num [Binary64.value?, Magnitude.value]
  constructor
  · exact (canonical_name_faithful.1 _ _ 1000 1000 (by rw [hpoint]; exact hthousand)
      (by rw [hexponent]; exact hthousand)).mpr rfl
  · exact fun h => absurd ((canonical_name_faithful.1 _ _ 1000 (1 / 2)
      (by rw [hexponent]; exact hthousand) (by rw [hhalf]; exact hhalf')).mp h) (by norm_num)

end TypeSuite.Number
