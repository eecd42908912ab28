import Mathlib.Algebra.Order.Field.Power
import Mathlib.Data.List.DropRight
import Mathlib.Data.Nat.Digits.Lemmas
import Mathlib.Data.Rat.Cast.Order
import Mathlib.Tactic.Linarith
import Mathlib.Tactic.NormNum
import Mathlib.Tactic.Positivity

/-!
# Decimal digits

`length_to_digits_spec` bounds a number by the powers of ten around it.
-/

namespace TypeSuite.Number

/-- A number is below the power of ten with as many zeros as it has digits. -/
theorem lt_pow_length_to_digits (n : ℕ) : n < 10 ^ (Nat.toDigits 10 n).length :=
  (Nat.length_toDigits_le_iff (by norm_num) Nat.length_toDigits_pos).mp le_rfl

/-- A positive number reaches the power of ten with as many digits. -/
theorem pow_length_to_digits_le {n : ℕ} (hn : 0 < n) :
    10 ^ ((Nat.toDigits 10 n).length - 1) ≤ n := by
  rcases Nat.eq_zero_or_pos ((Nat.toDigits 10 n).length - 1) with hzero | hpos
  · rw [hzero]
    exact hn
  · refine not_lt.mp fun hlt => ?_
    have hle := (Nat.length_toDigits_le_iff (by norm_num : 1 < 10) hpos).mpr hlt
    omega

/-- A positive decimal lies between the two powers of ten that its digits tell. -/
theorem length_to_digits_spec {n : ℕ} (hn : 0 < n) (e : ℤ) :
    (10 : ℚ) ^ ((Nat.toDigits 10 n).length + e - 1) ≤ n * 10 ^ e ∧
      (n : ℚ) * 10 ^ e < 10 ^ ((Nat.toDigits 10 n).length + e) := by
  have hlength : 0 < (Nat.toDigits 10 n).length := Nat.length_toDigits_pos
  have hlow : (10 : ℚ) ^ ((Nat.toDigits 10 n).length - 1) ≤ n := by
    exact_mod_cast pow_length_to_digits_le hn
  have hhigh : (n : ℚ) < 10 ^ (Nat.toDigits 10 n).length := by
    exact_mod_cast lt_pow_length_to_digits n
  generalize (Nat.toDigits 10 n).length = length at *
  have hpow : (0 : ℚ) < 10 ^ e := by positivity
  have hpred : (length : ℤ) + e - 1 = ((length - 1 : ℕ) : ℤ) + e := by omega
  rw [hpred, zpow_add₀ (by norm_num), zpow_add₀ (by norm_num), zpow_natCast, zpow_natCast]
  exact ⟨by gcongr, by gcongr⟩

/-- Without the zeros at its end, a text of digits denotes a number that is smaller by as many
powers of ten. -/
theorem rdrop_while_zero_spec (cs : List Char) :
    ∃ z, cs.length = (cs.rdropWhile (· == '0')).length + z ∧
      Nat.ofDigitChars 10 cs 0 = 10 ^ z * Nat.ofDigitChars 10 (cs.rdropWhile (· == '0')) 0 := by
  have hzeros : cs.rtakeWhile (· == '0') =
      List.replicate (cs.rtakeWhile (· == '0')).length '0' :=
    List.eq_replicate_iff.mpr ⟨rfl, fun c hc =>
      eq_of_beq (List.mem_rtakeWhile_imp (p := (· == '0')) hc)⟩
  have hsplit : cs.rdropWhile (· == '0') ++ cs.rtakeWhile (· == '0') = cs :=
    List.rdropWhile_append_rtakeWhile
  refine ⟨(cs.rtakeWhile (· == '0')).length, ?_, ?_⟩
  · rw [← List.length_append, hsplit]
  · rw [← Nat.ofDigitChars_replicate_zero, ← hzeros, ← Nat.ofDigitChars_append, hsplit]

end TypeSuite.Number
