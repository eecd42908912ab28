import Mathlib.Algebra.Order.Floor.Semifield
import Mathlib.Data.List.DropRight
import Mathlib.Data.Nat.Cast.Order.Field
import Mathlib.Data.Rat.Floor
import TypeSuite.Number.Shortest
import TypeSuite.Proofs.Number.Nearest

/-!
# Round trip of the shortest decimals

A decimal in the rounding interval of a magnitude is read back as this magnitude.
`shortest_is_shortest` says that the shortest decimal is one of them, that none of them has fewer
digits, and that none with as many is nearer.
-/

namespace TypeSuite.Number

open Magnitude

/-! ## The interval of a magnitude -/

/-- A power of any exponent is the quotient of a number and a number. -/
theorem power_quotient_spec {b : ℕ} (hb : 0 < b) (e : ℤ) :
    0 < (if 0 ≤ e then Nat.pow b e.toNat else 1) ∧
      0 < (if 0 ≤ e then 1 else Nat.pow b (-e).toNat) ∧
      ((if 0 ≤ e then Nat.pow b e.toNat else 1 : ℕ) : ℚ) /
        ((if 0 ≤ e then 1 else Nat.pow b (-e).toNat : ℕ) : ℚ) = (b : ℚ) ^ e := by
  split
  case isTrue he =>
    obtain ⟨n, rfl⟩ := Int.eq_ofNat_of_zero_le he
    refine ⟨Nat.pow_pos hb, Nat.one_pos, ?_⟩
    simp
  case isFalse he =>
    obtain ⟨n, rfl⟩ : ∃ n : ℕ, e = -(n : ℤ) := ⟨(-e).toNat, by omega⟩
    refine ⟨Nat.one_pos, Nat.pow_pos hb, ?_⟩
    simp

/-- The scale of an interval is a quarter of the step of the mantissa. -/
theorem scale_spec (e : ℤ) : 0 < (if 0 ≤ e then 4 else 4 * Nat.pow 2 (-e).toNat) ∧
    ((if 0 ≤ e then Nat.pow 2 e.toNat else 1 : ℕ) : ℚ) /
      ((if 0 ≤ e then 4 else 4 * Nat.pow 2 (-e).toNat : ℕ) : ℚ) = 2 ^ e / 4 := by
  obtain ⟨-, hdown, hpower⟩ := power_quotient_spec Nat.two_pos e
  have hfour : (if 0 ≤ e then 4 else 4 * Nat.pow 2 (-e).toNat) =
      4 * (if 0 ≤ e then 1 else Nat.pow 2 (-e).toNat) := by split <;> rfl
  rw [hfour]
  refine ⟨Nat.mul_pos (by norm_num) hdown, ?_⟩
  rw [Nat.cast_mul, mul_comm, ← div_div, hpower]
  rfl

variable {m : Magnitude}

/-- The gap of an interval is half as wide below a power of two. -/
theorem gap_eq (m : Magnitude) :
    (if m.mantissa = Nat.pow 2 (mantissaBits - 1) && minExponent < m.exponent then 1 else 2 : ℕ) =
      if m.IsLowest then 1 else 2 := by
  have hiff : (m.mantissa = Nat.pow 2 (mantissaBits - 1) && minExponent < m.exponent) = true ↔
      m.IsLowest := by
    rw [Bool.and_eq_true, decide_eq_true_iff, decide_eq_true_iff]
    rfl
  simp only [hiff]

/-- The quotients of an interval are the bounds of rounding with the number between them. -/
theorem interval_spec (hm : 0 < m.mantissa) :
    0 < m.interval.denominator ∧ (m.interval.low : ℚ) / m.interval.denominator = m.low ∧
      (m.interval.value : ℚ) / m.interval.denominator = m.value ∧
      (m.interval.high : ℚ) / m.interval.denominator = m.high := by
  obtain ⟨hpos, hscale⟩ := scale_spec m.exponent
  have hgap := gap_eq m
  unfold interval
  extract_lets gap scale denominator
  change gap = _ at hgap
  change 0 < denominator at hpos
  change (scale : ℚ) / denominator = _ at hscale
  refine ⟨hpos, ?_, ?_, ?_⟩
  · have hle : gap ≤ 4 * m.mantissa := by
      rw [hgap]
      split <;> omega
    simp only
    rw [Nat.cast_mul, mul_div_assoc, hscale, Nat.cast_sub hle, hgap, low]
    push_cast
    split <;> ring
  · simp only
    rw [Nat.cast_mul, mul_div_assoc, hscale, value]
    push_cast
    ring
  · simp only
    rw [Nat.cast_mul, mul_div_assoc, hscale, high]
    push_cast
    ring

/-- A quotient is in the interval of a magnitude if it is covered. -/
theorem contains_iff (hm : 0 < m.mantissa) (num : ℕ) {den : ℕ} (hden : 0 < den) :
    m.interval.contains num den = true ↔ m.Covers ((num : ℚ) / den) := by
  obtain ⟨hpos, hlow, -, hhigh⟩ := interval_spec hm
  have hpos' : (0 : ℚ) < m.interval.denominator := by exact_mod_cast hpos
  have hden' : (0 : ℚ) < den := by exact_mod_cast hden
  have hclosed : m.interval.closed = (m.mantissa % 2 == 0) := rfl
  rw [Covers, ← hlow, ← hhigh, RoundingInterval.contains, hclosed, div_le_div_iff₀ hpos' hden',
    div_le_div_iff₀ hden' hpos', div_lt_div_iff₀ hpos' hden', div_lt_div_iff₀ hden' hpos']
  norm_cast
  simp only [beq_iff_eq]
  split <;> simp

/-- What lies between covered numbers is covered. -/
theorem Magnitude.Covers.between {x y z : ℚ} (hx : m.Covers x) (hz : m.Covers z) (hxy : x ≤ y)
    (hyz : y ≤ z) : m.Covers y := by
  unfold Covers at *
  split at hx
  case isTrue heven =>
    rw [if_pos heven] at hz
    rw [if_pos heven]
    exact ⟨hx.1.trans hxy, hyz.trans hz.2⟩
  case isFalse hodd =>
    rw [if_neg hodd] at hz
    rw [if_neg hodd]
    exact ⟨hx.1.trans_le hxy, hyz.trans_lt hz.2⟩

/-- The quotient of numbers lies between the whole quotient and the next number. -/
theorem nat_div_bounds (num den : ℕ) :
    ((num / den : ℕ) : ℚ) ≤ (num : ℚ) / den ∧ (num : ℚ) / den < (num / den : ℕ) + 1 := by
  refine ⟨Nat.cast_div_le, ?_⟩
  rw [← Nat.floor_div_eq_div (K := ℚ)]
  exact Nat.lt_floor_add_one _

/-- The digits of a whole quotient tell the powers of ten around the quotient itself. -/
theorem point_bounds {num den p : ℕ} (hone : 1 ≤ (num : ℚ) / den * 10 ^ (p : ℤ)) :
    (10 : ℚ) ^ ((Nat.toDigits 10 (num * Nat.pow 10 p / den)).length - p - 1 : ℤ) ≤ num / den ∧
      (num : ℚ) / den < 10 ^ ((Nat.toDigits 10 (num * Nat.pow 10 p / den)).length - p : ℤ) := by
  have hbounds := nat_div_bounds (num * Nat.pow 10 p) den
  have hscaled : ((num * Nat.pow 10 p : ℕ) : ℚ) / den = (num : ℚ) / den * 10 ^ (p : ℤ) := by
    rw [Nat.cast_mul, Nat.pow_eq, Nat.cast_pow, zpow_natCast, mul_div_right_comm]
    rfl
  rw [hscaled] at hbounds
  obtain ⟨hlow, hhigh⟩ := hbounds
  generalize num * Nat.pow 10 p / den = n at *
  generalize (num : ℚ) / den = x at *
  have hpow : (0 : ℚ) < 10 ^ (p : ℤ) := by positivity
  have hpos : 0 < n := by
    have : (0 : ℚ) < n := by linarith
    exact_mod_cast this
  have hdigits := (length_to_digits_spec hpos 0).1
  have hsucc : (n : ℚ) + 1 ≤ 10 ^ ((Nat.toDigits 10 n).length : ℤ) := by
    exact_mod_cast lt_pow_length_to_digits n
  rw [zpow_zero, mul_one, add_zero] at hdigits
  constructor
  · rw [sub_right_comm, zpow_sub₀ (by norm_num), div_le_iff₀ hpow]
    exact hdigits.trans hlow
  · rw [zpow_sub₀ (by norm_num), lt_div_iff₀ hpow]
    exact hhigh.trans_le hsucc

/-- A positive magnitude is not less than the least one. -/
theorem least_le_value (hm : 0 < m.mantissa) (hmin : minExponent ≤ m.exponent) :
    2 ^ minExponent ≤ m.value := by
  have hone : (1 : ℚ) ≤ m.mantissa := by exact_mod_cast hm
  calc (2 : ℚ) ^ minExponent ≤ 1 * 2 ^ m.exponent := by
        rw [one_mul]
        exact zpow_le_zpow_right₀ (by norm_num) hmin
    _ ≤ m.mantissa * 2 ^ m.exponent := by gcongr

/-- A positive magnitude lies between the power of ten at its point and the one before. -/
theorem point_spec (hm : 0 < m.mantissa) (hmin : minExponent ≤ m.exponent) :
    (10 : ℚ) ^ (m.interval.point - 1) ≤ m.value ∧ m.value < 10 ^ m.interval.point := by
  obtain ⟨-, -, hvalue, -⟩ := interval_spec hm
  have hleast : 2 ^ 1074 ≤ 10 ^ 400 := by decide +kernel
  have hone : 1 ≤ m.value * 10 ^ ((400 : ℕ) : ℤ) := by
    calc (1 : ℚ) = 2 ^ minExponent * 2 ^ (1074 : ℤ) := by
          rw [← zpow_add₀ (by norm_num)]
          rfl
      _ ≤ m.value * 10 ^ ((400 : ℕ) : ℤ) := by
          gcongr ?_ * ?_
          · exact m.value_nonneg
          · exact least_le_value hm hmin
          · exact_mod_cast hleast
  rw [← hvalue] at hone ⊢
  have hcast : (400 : ℤ) = (400 : ℕ) := rfl
  rw [RoundingInterval.point, hcast]
  generalize 400 = p at *
  exact point_bounds hone

/-! ## Multiples of a power of ten -/

/-- The nearest integer is one of the two around a quotient. -/
theorem nearest_even_cases (num den : ℕ) :
    nearestEven num den = num / den ∨ nearestEven num den = num / den + 1 := by
  unfold nearestEven
  extract_lets q r
  split
  · exact .inl rfl
  · exact .inr rfl

/-- No integer is nearer than the nearest one. -/
theorem IsNearestInt.abs_sub_le {k : ℕ} {y : ℚ} (h : IsNearestInt k y) (j : ℕ) :
    |y - k| ≤ |y - j| := by
  obtain ⟨hlow, hhigh⟩ := h.bounds
  have hhalf : |y - k| ≤ 1 / 2 := abs_le.mpr ⟨by linarith, by linarith⟩
  rcases lt_trichotomy j k with hless | rfl | hmore
  · have hstep : (j : ℚ) + 1 ≤ k := by exact_mod_cast hless
    have hfar : y - j ≤ |y - j| := le_abs_self _
    linarith
  · exact le_rfl
  · have hstep : (k : ℚ) + 1 ≤ j := by exact_mod_cast hmore
    have hfar : -(y - j) ≤ |y - j| := neg_le_abs _
    linarith

/-- No multiple of a step is nearer than the nearest one. -/
theorem IsNearestInt.abs_sub_mul_le {k : ℕ} {x step : ℚ} (hstep : 0 < step)
    (h : IsNearestInt k (x / step)) (j : ℕ) : |x - k * step| ≤ |x - j * step| := by
  have hscale (i : ℕ) : |x - i * step| = |x / step - i| * step := by
    have hsplit : x - i * step = (x / step - i) * step := by
      rw [sub_mul, div_mul_cancel₀ _ hstep.ne']
    rw [hsplit, abs_mul, abs_of_pos hstep]
  rw [hscale, hscale]
  exact mul_le_mul_of_nonneg_right (h.abs_sub_le j) hstep.le

/-- What is chosen among the multiples of a step for a magnitude: the nearest of the covered ones,
or nothing when none is covered. -/
def Chooses (m : Magnitude) (step : ℚ) : Option ℕ → Prop
  | some k => m.Covers ((k : ℚ) * step) ∧
      ∀ j : ℕ, m.Covers ((j : ℚ) * step) →
        |m.value - (k : ℚ) * step| ≤ |m.value - (j : ℚ) * step|
  | none => ∀ j : ℕ, ¬ m.Covers ((j : ℚ) * step)

/-- A covered multiple is chosen if no other one is nearer. -/
theorem chooses_nearest {k : ℕ} {step : ℚ} (hstep : 0 < step)
    (hnearest : IsNearestInt k (m.value / step)) (hin : m.Covers ((k : ℚ) * step)) :
    Chooses m step (some k) :=
  ⟨hin, fun j _ => hnearest.abs_sub_mul_le hstep j⟩

section Neighbours

variable {below : ℕ} {step : ℚ} (hstep : 0 < step) (hlow : (below : ℚ) * step ≤ m.value)
  (hhigh : m.value < ((below + 1 : ℕ) : ℚ) * step)

include hstep hlow hhigh

/-- With a multiple, the neighbour of the magnitude on the same side is covered. -/
theorem covers_neighbour {j : ℕ} (hj : m.Covers ((j : ℚ) * step)) :
    (j ≤ below ∧ m.Covers ((below : ℚ) * step)) ∨
      (below + 1 ≤ j ∧ m.Covers (((below + 1 : ℕ) : ℚ) * step)) := by
  rcases le_or_gt j below with hle | hgt
  · exact .inl ⟨hle, hj.between m.covers_value (by gcongr) hlow⟩
  · have hle : below + 1 ≤ j := hgt
    exact .inr ⟨hle, m.covers_value.between hj hhigh.le (by gcongr)⟩

/-- The neighbour below is chosen if the one above is not covered. -/
theorem chooses_below (hin : m.Covers ((below : ℚ) * step))
    (hout : ¬ m.Covers (((below + 1 : ℕ) : ℚ) * step)) : Chooses m step (some below) := by
  refine ⟨hin, fun j hj => ?_⟩
  obtain ⟨hle, -⟩ := (covers_neighbour hstep hlow hhigh hj).resolve_right fun h => hout h.2
  have hle' : (j : ℚ) * step ≤ below * step := by gcongr
  exact abs_le_abs_of_nonneg (by linarith) (by linarith)

/-- The neighbour above is chosen if the one below is not covered. -/
theorem chooses_above (hout : ¬ m.Covers ((below : ℚ) * step))
    (hin : m.Covers (((below + 1 : ℕ) : ℚ) * step)) : Chooses m step (some (below + 1)) := by
  refine ⟨hin, fun j hj => ?_⟩
  obtain ⟨hle, -⟩ := (covers_neighbour hstep hlow hhigh hj).resolve_left fun h => hout h.2
  have hle' : ((below + 1 : ℕ) : ℚ) * step ≤ j * step := by gcongr
  exact abs_le_abs_of_nonpos (by linarith) (by linarith)

/-- Nothing is chosen if no neighbour is covered. -/
theorem chooses_none (hlowOut : ¬ m.Covers ((below : ℚ) * step))
    (hhighOut : ¬ m.Covers (((below + 1 : ℕ) : ℚ) * step)) : Chooses m step none := by
  intro j hj
  rcases covers_neighbour hstep hlow hhigh hj with h | h
  · exact hlowOut h.2
  · exact hhighOut h.2

end Neighbours

/-- The nearest covered multiple of a power of ten is found, if one is covered at all. -/
theorem on_grid_chooses (hm : 0 < m.mantissa) (e : ℤ) :
    Chooses m (10 ^ e) (m.interval.onGrid? e) := by
  obtain ⟨hup, hdown, hscale⟩ := power_quotient_spec (b := 10) (by norm_num) e
  obtain ⟨hpos, -, hvalue, -⟩ := interval_spec hm
  unfold RoundingInterval.onGrid?
  extract_lets up down below inside num den
  change 0 < up at hup
  change 0 < down at hdown
  change (up : ℚ) / down = 10 ^ e at hscale
  have hpow : (0 : ℚ) < 10 ^ e := by positivity
  have hinside (k : ℕ) : inside k = true ↔ m.Covers ((k : ℚ) * 10 ^ e) := by
    rw [← hscale, ← mul_div_assoc, ← Nat.cast_mul]
    exact contains_iff hm (k * up) hdown
  have hquotient : (num : ℚ) / den = m.value / 10 ^ e := by
    rw [← hvalue, ← hscale, Nat.cast_mul, Nat.cast_mul]
    field_simp
  have hbounds : (below : ℚ) ≤ num / den ∧ (num : ℚ) / den < (below + 1 : ℕ) := by
    rw [Nat.cast_succ]
    exact nat_div_bounds num den
  rw [hquotient, le_div_iff₀ hpow, div_lt_iff₀ hpow] at hbounds
  obtain ⟨hlow, hhigh⟩ := hbounds
  cases hbelow : inside below <;> cases habove : inside (below + 1) <;>
    simp only [← Bool.not_eq_true, hinside] at hbelow habove
  case true.true =>
    have hnearest := nearest_even_is_nearest num (Nat.mul_pos hpos hup)
    rw [hquotient] at hnearest
    refine chooses_nearest hpow hnearest ?_
    rcases nearest_even_cases num den with heq | heq
    · rw [heq]
      exact hbelow
    · rw [heq]
      exact habove
  case true.false => exact chooses_below hpow hlow hhigh hbelow habove
  case false.true => exact chooses_above hpow hlow hhigh hbelow habove
  case false.false => exact chooses_none hpow hlow hhigh hbelow habove

/-- What is found is covered. -/
theorem on_grid_covers (hm : 0 < m.mantissa) {e : ℤ} {k : ℕ}
    (h : m.interval.onGrid? e = some k) : m.Covers ((k : ℚ) * 10 ^ e) := by
  have hchooses := on_grid_chooses hm e
  rw [h] at hchooses
  exact hchooses.1

/-- What is found is nearest among the covered multiples. -/
theorem on_grid_nearest (hm : 0 < m.mantissa) {e : ℤ} {k j : ℕ}
    (h : m.interval.onGrid? e = some k) (hj : m.Covers ((j : ℚ) * 10 ^ e)) :
    |m.value - (k : ℚ) * 10 ^ e| ≤ |m.value - (j : ℚ) * 10 ^ e| := by
  have hchooses := on_grid_chooses hm e
  rw [h] at hchooses
  exact hchooses.2 j hj

/-- When nothing is found, no multiple is covered. -/
theorem not_covers_of_on_grid (hm : 0 < m.mantissa) {e : ℤ} (h : m.interval.onGrid? e = none)
    (j : ℕ) : ¬ m.Covers ((j : ℚ) * 10 ^ e) := by
  have hchooses := on_grid_chooses hm e
  rw [h] at hchooses
  exact hchooses j

/-- A step that is narrower than the interval has a covered multiple. -/
theorem exists_covered_multiple {step : ℚ} (hstep : 0 < step) (hwidth : step < m.high - m.low) :
    ∃ k : ℕ, m.Covers ((k : ℚ) * step) := by
  obtain ⟨hlow, hhigh⟩ := m.value_between
  obtain ⟨below, hbelow⟩ : ∃ below, ⌊m.value / step⌋₊ = below := ⟨_, rfl⟩
  have hle : (below : ℚ) * step ≤ m.value := by
    rw [← le_div_iff₀ hstep, ← hbelow]
    exact Nat.floor_le (div_nonneg m.value_nonneg hstep.le)
  have hgt : m.value < ((below : ℚ) + 1) * step := by
    rw [← div_lt_iff₀ hstep, ← hbelow]
    exact Nat.lt_floor_add_one _
  -- If the neighbour below is out, then the one above is less than a step above the lower bound.
  rcases lt_or_ge m.low ((below : ℚ) * step) with hin | hout
  · exact ⟨below, covers_of_lt hin (hle.trans_lt hhigh)⟩
  · refine ⟨below + 1, covers_of_lt ?_ ?_⟩
    · rw [Nat.cast_succ]
      linarith
    · rw [Nat.cast_succ]
      linarith

/-- The interval is wider than the least of seventeen digits. -/
theorem step_lt_width (hregular : m.IsRegular) {step : ℚ} (hstep : step * 10 ^ 16 ≤ m.value) :
    step < m.high - m.low := by
  have hpow : (0 : ℚ) < 2 ^ m.exponent := by positivity
  have hless : (m.mantissa : ℚ) + 1 ≤ 2 ^ 53 := by exact_mod_cast hregular.lt
  rw [value] at hstep
  rw [high, low]
  split
  case isTrue hlowest =>
    have hmantissa : (m.mantissa : ℚ) = 2 ^ 52 := by exact_mod_cast hlowest.1
    rw [hmantissa] at hstep
    linarith
  case isFalse => nlinarith

/-- Seventeen digits suffice. -/
theorem on_grid_seventeen (hm : 0 < m.mantissa) (hregular : m.IsRegular) :
    ∃ k, m.interval.onGrid? (m.interval.point - 17) = some k := by
  refine Option.ne_none_iff_exists'.mp fun hnone => ?_
  have hgrid : (0 : ℚ) < 10 ^ (m.interval.point - 17) := by positivity
  have hstep : (10 : ℚ) ^ (m.interval.point - 17) * 10 ^ 16 ≤ m.value := by
    have hpoint := (point_spec hm hregular.min_le).1
    have hsplit : m.interval.point - 1 = m.interval.point - 17 + (16 : ℕ) := by omega
    rwa [hsplit, zpow_add₀ (by norm_num), zpow_natCast] at hpoint
  obtain ⟨k, hk⟩ := exists_covered_multiple hgrid (step_lt_width hregular hstep)
  exact not_covers_of_on_grid hm hnone k hk

/-! ## The shortest decimal -/

/-- The number that a decimal stands for. -/
def Decimal.value (d : Decimal) : ℚ :=
  (Nat.ofDigitChars 10 d.digits 0 : ℚ) * 10 ^ (d.point - d.digits.length)

/-- Zeros at the end of the digits count for the number only by their place. -/
theorem Decimal.value_of_digits (cs : List Char) (e : ℤ) :
    (⟨cs.rdropWhile (· == '0'), cs.length + e⟩ : Decimal).value =
      (Nat.ofDigitChars 10 cs 0 : ℚ) * 10 ^ e := by
  obtain ⟨z, hlength, hvalue⟩ := rdrop_while_zero_spec cs
  rw [Decimal.value, hvalue, hlength]
  generalize cs.rdropWhile (· == '0') = digits
  have hexponent : ((digits.length + z : ℕ) : ℤ) + e - digits.length = z + e := by omega
  simp only
  rw [hexponent, zpow_add₀ (by norm_num), zpow_natCast]
  push_cast
  ring

/-- The shortest decimal is on the coarsest grid with a covered multiple. -/
theorem shortest_found (hm : 0 < m.mantissa) (hregular : m.IsRegular) :
    ∃ n k : ℕ, m.interval.onGrid? (m.interval.point - (n + 1 : ℕ)) = some k ∧
      (∀ i < n, m.interval.onGrid? (m.interval.point - (i + 1 : ℕ)) = none) ∧
      m.shortest = ⟨(Nat.toDigits 10 k).rdropWhile (· == '0'),
        (Nat.toDigits 10 k).length + (m.interval.point - (n + 1 : ℕ))⟩ := by
  unfold shortest
  extract_lets i point found
  cases hfound : found with
  | none =>
      obtain ⟨k, hk⟩ := on_grid_seventeen hm hregular
      have hnone := List.findSome?_eq_none_iff.mp hfound 16 (by simp)
      rw [Option.map_eq_none_iff] at hnone
      cases hnone.symm.trans hk
  | some pair =>
      obtain ⟨before, n, after, hrange, hn, hbefore⟩ := List.findSome?_eq_some_iff.mp hfound
      obtain ⟨k, hk, rfl⟩ := Option.map_eq_some_iff.mp hn
      refine ⟨n, k, hk, fun i hi => ?_, rfl⟩
      have hsorted := List.pairwise_lt_range (n := 17)
      have hlast : n ∈ List.range 17 := by rw [hrange]; simp
      have hmem : i ∈ List.range 17 := List.mem_range.mpr (hi.trans (List.mem_range.mp hlast))
      rw [hrange, List.pairwise_append, List.pairwise_cons] at hsorted
      rw [hrange, List.mem_append, List.mem_cons] at hmem
      rcases hmem with hmem | rfl | hmem
      · exact Option.map_eq_none_iff.mp (hbefore i hmem)
      · exact absurd hi (lt_irrefl _)
      · exact absurd (hsorted.2.1.1 i hmem) (by omega)

/-- The shortest decimal stands for the multiple that was found. -/
theorem shortest_spec (hm : 0 < m.mantissa) (hregular : m.IsRegular) :
    ∃ n k : ℕ, m.interval.onGrid? (m.interval.point - (n + 1 : ℕ)) = some k ∧
      (∀ i < n, m.interval.onGrid? (m.interval.point - (i + 1 : ℕ)) = none) ∧
      m.shortest.digits = (Nat.toDigits 10 k).rdropWhile (· == '0') ∧
      m.shortest.value = (k : ℚ) * 10 ^ (m.interval.point - (n + 1 : ℕ)) := by
  obtain ⟨n, k, hk, hbefore, hshortest⟩ := shortest_found hm hregular
  refine ⟨n, k, hk, hbefore, by rw [hshortest], ?_⟩
  rw [hshortest, Decimal.value_of_digits, Nat.ofDigitChars_toDigits (by norm_num) le_rfl]

/-- The shortest decimal of a positive magnitude is read back as this magnitude. -/
theorem shortest_covered (hm : 0 < m.mantissa) (hregular : m.IsRegular) :
    m.Covers m.shortest.value := by
  obtain ⟨n, k, hk, -, -, hvalue⟩ := shortest_spec hm hregular
  rw [hvalue]
  exact on_grid_covers hm hk

/-- The shortest decimal has a digit. -/
theorem shortest_digits_ne_nil (hm : 0 < m.mantissa) (hregular : m.IsRegular) :
    m.shortest.digits ≠ [] := by
  intro hnil
  have hcovers := shortest_covered hm hregular
  have hzero : m.shortest.value = 0 := by
    rw [Decimal.value, hnil]
    exact zero_mul _
  rw [hzero] at hcovers
  rw [eq_zero_of_covers hregular hcovers] at hm
  exact lt_irrefl _ hm

/-- The digits of the shortest decimal are digits. -/
theorem shortest_digits (hm : 0 < m.mantissa) (hregular : m.IsRegular) :
    ∀ c ∈ m.shortest.digits, c.isDigit = true := by
  obtain ⟨n, k, -, -, hdigits, -⟩ := shortest_spec hm hregular
  rw [hdigits]
  intro c hc
  exact Nat.isDigit_of_mem_toDigits (by norm_num) le_rfl ((List.rdropWhile_prefix _ _).subset hc)

/-- The shortest decimal of a magnitude that is no integer has a digit behind the point. -/
theorem point_lt_length (hm : 0 < m.mantissa) (hregular : m.IsRegular) (hnone : m.toNat? = none) :
    m.shortest.point < m.shortest.digits.length := by
  by_contra hge
  obtain ⟨d, hd⟩ : ∃ d : ℕ, m.shortest.point - m.shortest.digits.length = d :=
    ⟨(m.shortest.point - m.shortest.digits.length).toNat, by omega⟩
  have hcovers := shortest_covered hm hregular
  have hvalue : m.shortest.value =
      ((Nat.ofDigitChars 10 m.shortest.digits 0 * 10 ^ d : ℕ) : ℚ) := by
    rw [Decimal.value, hd, zpow_natCast]
    push_cast
    rfl
  rw [hvalue] at hcovers
  obtain ⟨n, hn⟩ := exists_nat_of_covers hcovers
  rw [hnone] at hn
  cases hn

/-- A covered decimal whose digits fit above a grid is on it, or the point of the magnitude is
covered too. -/
theorem covers_grid (hm : 0 < m.mantissa) (hregular : m.IsRegular) {c l : ℕ} {e : ℤ}
    (hc : m.Covers ((c : ℚ) * 10 ^ e)) (hlength : (Nat.toDigits 10 c).length ≤ l) :
    (∃ j : ℕ, (j : ℚ) * 10 ^ (m.interval.point - l) = (c : ℚ) * 10 ^ e) ∨
      (m.Covers (10 ^ (m.interval.point - 1)) ∧
        (c : ℚ) * 10 ^ e < 10 ^ (m.interval.point - 1)) := by
  rcases le_or_gt (m.interval.point - l) e with hle | hgt
  · obtain ⟨d, rfl⟩ : ∃ d : ℕ, e = m.interval.point - l + d :=
      ⟨(e - (m.interval.point - l)).toNat, by omega⟩
    refine .inl ⟨c * 10 ^ d, ?_⟩
    rw [zpow_add₀ (by norm_num) _ (d : ℤ), zpow_natCast]
    push_cast
    ring
  · have hpoint := (point_spec hm hregular.min_le).1
    have hless : (c : ℚ) * 10 ^ e < 10 ^ (m.interval.point - 1) := by
      have hcpow : (c : ℚ) < 10 ^ (Nat.toDigits 10 c).length := by
        exact_mod_cast lt_pow_length_to_digits c
      calc (c : ℚ) * 10 ^ e < 10 ^ (Nat.toDigits 10 c).length * 10 ^ e := by gcongr
        _ = 10 ^ ((Nat.toDigits 10 c).length + e) := by
            rw [zpow_add₀ (by norm_num), zpow_natCast]
        _ ≤ 10 ^ (m.interval.point - 1) := zpow_le_zpow_right₀ (by norm_num) (by omega)
    exact .inr ⟨hc.between m.covers_value hless.le hpoint, hless⟩

/-- The grid of the shortest decimal has as many digits above it, unless its only digit is the one
in front of the point. -/
theorem shortest_digits_length_le (hm : 0 < m.mantissa) (hregular : m.IsRegular) {n k : ℕ}
    (hk : m.interval.onGrid? (m.interval.point - (n + 1 : ℕ)) = some k)
    (hbefore : ∀ i < n, m.interval.onGrid? (m.interval.point - (i + 1 : ℕ)) = none) :
    ((Nat.toDigits 10 k).rdropWhile (· == '0')).length ≤ n + 1 := by
  rcases lt_or_ge k (10 ^ (n + 1)) with hless | hmore
  · have hlength : (Nat.toDigits 10 k).length ≤ n + 1 :=
      (Nat.length_toDigits_le_iff (by norm_num) n.succ_pos).mpr hless
    exact (List.rdropWhile_prefix _ _).length_le.trans hlength
  · -- The power of ten above the magnitude is covered, which leaves no room for further digits.
    obtain ⟨hlow, hhigh⟩ := point_spec hm hregular.min_le
    have hcovers := on_grid_covers hm hk
    have hpow : (0 : ℚ) < 10 ^ (m.interval.point - (n + 1 : ℕ)) := by positivity
    have hsplit (i : ℕ) : (10 : ℚ) ^ m.interval.point =
        ((10 ^ i : ℕ) : ℚ) * 10 ^ (m.interval.point - i) := by
      rw [Nat.cast_pow, Nat.cast_ofNat, ← zpow_natCast, ← zpow_add₀ (by norm_num), add_sub_cancel]
    have habove : m.Covers (10 ^ m.interval.point) := by
      refine m.covers_value.between hcovers hhigh.le ?_
      rw [hsplit (n + 1)]
      gcongr
    have hten : (10 : ℚ) ^ m.interval.point = ((10 : ℕ) : ℚ) * 10 ^ (m.interval.point - 1) :=
      hsplit 1
    rw [hten] at habove hhigh
    have hzero : n = 0 := by
      by_contra hne
      exact not_covers_of_on_grid hm (hbefore 0 (Nat.pos_of_ne_zero hne)) 10 habove
    subst hzero
    have hnearest : |m.value - (k : ℚ) * 10 ^ (m.interval.point - 1)| ≤
        |m.value - ((10 : ℕ) : ℚ) * 10 ^ (m.interval.point - 1)| := on_grid_nearest hm hk habove
    have hfar : -(m.value - (k : ℚ) * 10 ^ (m.interval.point - 1)) ≤ _ := neg_le_abs _
    rw [abs_of_neg (sub_neg.mpr hhigh)] at hnearest
    have hle : (k : ℚ) * 10 ^ (m.interval.point - 1) ≤
        ((10 : ℕ) : ℚ) * 10 ^ (m.interval.point - 1) := by linarith
    have hk10 : k ≤ 10 := by exact_mod_cast le_of_mul_le_mul_right hle hpow
    rw [le_antisymm hk10 hmore]
    decide

/-- No decimal that is read back as a magnitude has fewer digits than the shortest one. -/
theorem length_shortest_le (hm : 0 < m.mantissa) (hregular : m.IsRegular) {c : ℕ} {e : ℤ}
    (hc : m.Covers ((c : ℚ) * 10 ^ e)) :
    m.shortest.digits.length ≤ (Nat.toDigits 10 c).length := by
  obtain ⟨n, k, hk, hbefore, hdigits, -⟩ := shortest_spec hm hregular
  have hlength := shortest_digits_length_le hm hregular hk hbefore
  rw [← hdigits] at hlength
  by_contra hfewer
  have hpos : 0 < (Nat.toDigits 10 c).length := Nat.length_toDigits_pos
  obtain ⟨l, rfl⟩ : ∃ l, n = l + 1 := ⟨n - 1, by omega⟩
  rcases covers_grid hm hregular (l := l + 1) hc (by omega) with ⟨j, hj⟩ | ⟨hpoint, -⟩
  · rw [← hj] at hc
    exact not_covers_of_on_grid hm (hbefore l l.lt_succ_self) j hc
  · refine not_covers_of_on_grid hm (hbefore 0 l.succ_pos) 1 ?_
    rwa [Nat.cast_one, one_mul]

/-- No decimal with as few digits as the shortest one is nearer. -/
theorem shortest_nearest (hm : 0 < m.mantissa) (hregular : m.IsRegular) {c : ℕ} {e : ℤ}
    (hc : m.Covers ((c : ℚ) * 10 ^ e))
    (hdigits : (Nat.toDigits 10 c).length ≤ m.shortest.digits.length) :
    |m.value - m.shortest.value| ≤ |m.value - (c : ℚ) * 10 ^ e| := by
  obtain ⟨n, k, hk, hbefore, hshortest, hvalue⟩ := shortest_spec hm hregular
  have hlength := shortest_digits_length_le hm hregular hk hbefore
  rw [← hshortest] at hlength
  rw [hvalue]
  rcases covers_grid hm hregular (l := n + 1) hc (by omega) with ⟨j, hj⟩ | ⟨hpoint, hless⟩
  · rw [← hj] at hc ⊢
    exact on_grid_nearest hm hk hc
  · have hzero : n = 0 := by
      by_contra hne
      refine not_covers_of_on_grid hm (hbefore 0 (Nat.pos_of_ne_zero hne)) 1 ?_
      rwa [Nat.cast_one, one_mul]
    subst hzero
    have hlow := (point_spec hm hregular.min_le).1
    have hone : ((1 : ℕ) : ℚ) * 10 ^ (m.interval.point - (0 + 1 : ℕ)) =
        10 ^ (m.interval.point - 1) := by
      rw [Nat.cast_one, one_mul]
      rfl
    have hnearest := on_grid_nearest hm hk (j := 1) (by rwa [hone])
    rw [hone] at hnearest
    exact hnearest.trans (abs_le_abs_of_nonneg (by linarith) (by linarith))

/-- A decimal is read as a magnitude, has the fewest digits of all that are, and is the nearest of
these. -/
structure Decimal.IsShortest (d : Decimal) (m : Magnitude) : Prop where
  reads : ofDecimal? (Nat.ofDigitChars 10 d.digits 0) (d.point - d.digits.length) = some m
  length_le : ∀ c e, ofDecimal? c e = some m → d.digits.length ≤ (Nat.toDigits 10 c).length
  nearest : ∀ c e, ofDecimal? c e = some m → (Nat.toDigits 10 c).length = d.digits.length →
    |m.value - d.value| ≤ |m.value - (c : ℚ) * 10 ^ e|

/-- The shortest decimal is the shortest. -/
theorem shortest_is_shortest (hm : 0 < m.mantissa) (hcanonical : m.IsCanonical) :
    m.shortest.IsShortest m where
  reads := (of_decimal_eq_some_iff hcanonical _ _).mpr
    (shortest_covered hm hcanonical.toIsRegular)
  length_le c e h := length_shortest_le hm hcanonical.toIsRegular
    ((of_decimal_eq_some_iff hcanonical c e).mp h)
  nearest c e h hlength := shortest_nearest hm hcanonical.toIsRegular
    ((of_decimal_eq_some_iff hcanonical c e).mp h) hlength.le

end TypeSuite.Number
