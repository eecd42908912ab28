import Mathlib.Algebra.Order.Field.Basic
import Mathlib.Algebra.Order.Field.Power
import Mathlib.Data.Rat.Cast.Order
import Mathlib.Tactic.FieldSimp
import Mathlib.Tactic.Linarith
import Mathlib.Tactic.NormNum
import Mathlib.Tactic.Ring
import TypeSuite.Number.Binary64

/-!
# Rounding to double precision

Every magnitude has a rounding interval around it, whose bounds belong to it if the mantissa is
even. A number is scaled to the exponent at which it has a full mantissa, or to the least exponent,
and the nearest integer is taken there. `carried_covers` and `carried_of_covers` say that this gives
the one magnitude in whose interval the number lies.
-/

namespace TypeSuite.Number

/-! ## Nearest integers -/

/-- An integer is nearest to a number. A half belongs to the even neighbour. -/
def IsNearestInt (k : ℕ) (y : ℚ) : Prop :=
  if k % 2 = 0 then (k : ℚ) - 1 / 2 ≤ y ∧ y ≤ k + 1 / 2 else (k : ℚ) - 1 / 2 < y ∧ y < k + 1 / 2

/-- A nearest integer is at most a half away. -/
theorem IsNearestInt.bounds {k : ℕ} {y : ℚ} (h : IsNearestInt k y) :
    (k : ℚ) - 1 / 2 ≤ y ∧ y ≤ k + 1 / 2 := by
  unfold IsNearestInt at h
  split at h
  · exact h
  · exact ⟨h.1.le, h.2.le⟩

/-- An even integer that is at most a half away is nearest. -/
theorem is_nearest_int_of_even {k : ℕ} {y : ℚ} (hk : k % 2 = 0) (hlow : (k : ℚ) - 1 / 2 ≤ y)
    (hhigh : y ≤ k + 1 / 2) : IsNearestInt k y := by
  rw [IsNearestInt, if_pos hk]
  exact ⟨hlow, hhigh⟩

/-- An integer that is less than a half away is nearest. -/
theorem is_nearest_int_of_lt {k : ℕ} {y : ℚ} (hlow : (k : ℚ) - 1 / 2 < y) (hhigh : y < k + 1 / 2) :
    IsNearestInt k y := by
  unfold IsNearestInt
  split
  · exact ⟨hlow.le, hhigh.le⟩
  · exact ⟨hlow, hhigh⟩

/-- Of two nearest integers, none is less than the other. -/
theorem IsNearestInt.not_lt {k l : ℕ} {y : ℚ} (hk : IsNearestInt k y) (hl : IsNearestInt l y) :
    ¬ k < l := by
  intro hlt
  have hle : (k : ℚ) + 1 ≤ l := by exact_mod_cast hlt
  unfold IsNearestInt at hk hl
  split at hk
  case isFalse =>
    have hlow : (l : ℚ) - 1 / 2 ≤ y := by
      split at hl
      · exact hl.1
      · exact hl.1.le
    linarith [hk.2]
  case isTrue heven =>
    split at hl
    case isFalse => linarith [hk.2, hl.1]
    case isTrue heven' =>
      -- Both bounds meet at the half, so the integers are neighbours and cannot both be even.
      have hsucc : (l : ℚ) = k + 1 := by linarith [hk.2, hl.1]
      have hsucc' : l = k + 1 := by exact_mod_cast hsucc
      omega

/-- A number has one nearest integer. -/
theorem IsNearestInt.unique {k l : ℕ} {y : ℚ} (hk : IsNearestInt k y) (hl : IsNearestInt l y) :
    k = l := by
  have hkl := hk.not_lt hl
  have hlk := hl.not_lt hk
  omega

/-- The integer nearest to a quotient is nearest to its value. -/
theorem nearest_even_is_nearest (num : ℕ) {den : ℕ} (hden : 0 < den) :
    IsNearestInt (nearestEven num den) ((num : ℚ) / den) := by
  have hpos : (0 : ℚ) < den := by exact_mod_cast hden
  have hvalue : (num : ℚ) / den = (num / den : ℕ) + ((num % den : ℕ) : ℚ) / den := by
    have hdiv : (den : ℚ) * (num / den : ℕ) + (num % den : ℕ) = num := by
      exact_mod_cast Nat.div_add_mod num den
    field_simp
    linarith
  have hfrac : (0 : ℚ) ≤ ((num % den : ℕ) : ℚ) / den := div_nonneg (Nat.cast_nonneg _) hpos.le
  have hone : ((num % den : ℕ) : ℚ) / den < 1 := by
    rw [div_lt_one₀ hpos]
    exact_mod_cast Nat.mod_lt num hden
  rw [hvalue]
  unfold nearestEven
  simp only
  generalize num / den = q
  generalize num % den = r at *
  rcases lt_trichotomy (2 * r) den with hless | hhalf | hmore
  · have hlt : (r : ℚ) / den < 1 / 2 := by
      rw [div_lt_iff₀ hpos]
      have : (2 * r : ℚ) < den := by exact_mod_cast hless
      linarith
    rw [if_pos (by simp [hless])]
    exact is_nearest_int_of_lt (by linarith) (by linarith)
  · have heq : (r : ℚ) / den = 1 / 2 := by
      rw [div_eq_iff hpos.ne']
      have : (2 * r : ℚ) = den := by exact_mod_cast hhalf
      linarith
    rw [heq]
    split
    case isTrue hcond =>
      have heven : q % 2 = 0 := by
        simp [hhalf] at hcond
        omega
      exact is_nearest_int_of_even heven (by linarith) (by linarith)
    case isFalse hcond =>
      have heven : (q + 1) % 2 = 0 := by
        simp [hhalf] at hcond
        omega
      exact is_nearest_int_of_even heven (by push_cast; linarith) (by push_cast; linarith)
  · have hgt : 1 / 2 < (r : ℚ) / den := by
      rw [lt_div_iff₀ hpos]
      have : (den : ℚ) < 2 * r := by exact_mod_cast hmore
      linarith
    rw [if_neg (by simp; omega)]
    exact is_nearest_int_of_lt (by push_cast; linarith) (by push_cast; linarith)

/-! ## Exponents -/

/-- A quotient is scaled by a power of two. -/
theorem scaled_spec (num : ℕ) {den : ℕ} (hden : 0 < den) (e : ℤ) :
    0 < (scaled num den e).2 ∧
      ((scaled num den e).1 : ℚ) / (scaled num den e).2 = (num : ℚ) / den / 2 ^ e := by
  unfold scaled
  split
  case isTrue he =>
    obtain ⟨n, rfl⟩ := Int.eq_ofNat_of_zero_le he
    refine ⟨Nat.mul_pos hden (Nat.two_pow_pos _), ?_⟩
    simp [div_div]
  case isFalse he =>
    obtain ⟨n, rfl⟩ : ∃ n : ℕ, e = -(n : ℤ) := ⟨(-e).toNat, by omega⟩
    refine ⟨hden, ?_⟩
    simp [mul_div_right_comm]

/-- A number has a full mantissa at an exponent. -/
def InBinade (k : ℤ) (x : ℚ) : Prop :=
  2 ^ 52 * 2 ^ k ≤ x ∧ x < 2 ^ 53 * 2 ^ k

/-- The exponent of a number is not above one at which it is below the full mantissas. -/
theorem InBinade.le_of_lt {k e : ℤ} {x : ℚ} (h : InBinade k x) (hx : x < 2 ^ 53 * 2 ^ e) :
    k ≤ e := by
  have hlt : (2 : ℚ) ^ k < 2 ^ (e + 1) := by
    rw [zpow_add_one₀ (by norm_num)]
    linarith [h.1]
  have := (zpow_lt_zpow_iff_right₀ (by norm_num : (1 : ℚ) < 2)).mp hlt
  omega

/-- The exponent of a number is not below one at which it reaches the full mantissas. -/
theorem InBinade.le_of_le {k e : ℤ} {x : ℚ} (h : InBinade k x) (hx : 2 ^ 52 * 2 ^ e ≤ x) :
    e ≤ k := by
  have hlt : (2 : ℚ) ^ e < 2 ^ (k + 1) := by
    rw [zpow_add_one₀ (by norm_num)]
    linarith [h.2]
  have := (zpow_lt_zpow_iff_right₀ (by norm_num : (1 : ℚ) < 2)).mp hlt
  omega

/-- The binary logarithm of a number tells the powers of two around it. -/
theorem log_bounds {n : ℕ} (hn : 0 < n) : (2 : ℚ) ^ n.log2 ≤ n ∧ (n : ℚ) < 2 ^ n.log2 * 2 := by
  constructor
  · exact_mod_cast Nat.log2_self_le hn.ne'
  · exact_mod_cast pow_succ 2 n.log2 ▸ Nat.lt_log2_self

/-- The logarithms of a numerator and a denominator tell the exponent of the quotient up to one. -/
theorem guess_bounds {num den : ℕ} (hnum : 0 < num) (hden : 0 < den) {guess : ℤ}
    (hguess : guess = (num.log2 : ℤ) - den.log2 - 52) :
    2 ^ 51 * 2 ^ guess ≤ (num : ℚ) / den ∧ (num : ℚ) / den < 2 ^ 53 * 2 ^ guess := by
  obtain ⟨hnumLow, hnumHigh⟩ := log_bounds hnum
  obtain ⟨hdenLow, hdenHigh⟩ := log_bounds hden
  have hpos : (0 : ℚ) < den := by exact_mod_cast hden
  have hpow : (0 : ℚ) < 2 ^ guess := by positivity
  have hlogs : (2 : ℚ) ^ num.log2 = 2 ^ 52 * 2 ^ guess * 2 ^ den.log2 := by
    rw [hguess, zpow_sub₀ (by norm_num), zpow_sub₀ (by norm_num), zpow_natCast, zpow_natCast]
    field_simp
  constructor
  · rw [le_div_iff₀ hpos]
    nlinarith
  · rw [div_lt_iff₀ hpos]
    nlinarith

/-- The exponent of a quotient is that of its full mantissa, or the least exponent. -/
theorem quotient_exponent_spec {num den : ℕ} (hnum : 0 < num) (hden : 0 < den) :
    ∃ k, InBinade k ((num : ℚ) / den) ∧ quotientExponent num den = max minExponent k := by
  obtain ⟨guess, hguess⟩ : ∃ guess : ℤ, guess = (num.log2 : ℤ) - den.log2 - 52 := ⟨_, rfl⟩
  obtain ⟨hlow, hhigh⟩ := guess_bounds hnum hden hguess
  obtain ⟨hscaled, hvalue⟩ := scaled_spec num hden guess
  have hscaledPos : (0 : ℚ) < (scaled num den guess).2 := by exact_mod_cast hscaled
  have hpow : (0 : ℚ) < 2 ^ guess := by positivity
  have hcond : (scaled num den guess).1 < (scaled num den guess).2 * 2 ^ 52 ↔
      (num : ℚ) / den < 2 ^ 52 * 2 ^ guess := by
    rw [← div_lt_iff₀ hpow, ← hvalue, div_lt_iff₀ hscaledPos]
    norm_cast
    rw [mul_comm]
  have hexponent : quotientExponent num den = max minExponent
      (if (scaled num den guess).1 < (scaled num den guess).2 * 2 ^ 52 then guess - 1
        else guess) := by
    rw [hguess]
    rfl
  by_cases hless : (num : ℚ) / den < 2 ^ 52 * 2 ^ guess
  · refine ⟨guess - 1, ⟨?_, ?_⟩, by rw [hexponent, if_pos (hcond.mpr hless)]⟩
    · rw [zpow_sub_one₀ (by norm_num)]
      linarith
    · rw [zpow_sub_one₀ (by norm_num)]
      linarith
  · exact ⟨guess, ⟨not_lt.mp hless, hhigh⟩, by rw [hexponent, if_neg (hcond.not.mpr hless)]⟩

/-! ## Rounding intervals -/

namespace Magnitude

/-- The number that a magnitude stands for. -/
def value (m : Magnitude) : ℚ :=
  m.mantissa * 2 ^ m.exponent

/-- A magnitude has a full mantissa unless it has the least exponent. -/
structure IsRegular (m : Magnitude) : Prop where
  lt : m.mantissa < 2 ^ 53
  full : 2 ^ 52 ≤ m.mantissa ∨ m.exponent = minExponent
  min_le : minExponent ≤ m.exponent

/-- The magnitudes of double-precision numbers. -/
structure IsCanonical (m : Magnitude) : Prop extends m.IsRegular where
  le_max : m.exponent ≤ maxExponent

/-- A power of two is twice as near to the magnitude below it as to the one above it. -/
def IsLowest (m : Magnitude) : Prop :=
  m.mantissa = 2 ^ 52 ∧ minExponent < m.exponent

instance (m : Magnitude) : Decidable m.IsLowest :=
  inferInstanceAs (Decidable (_ ∧ _))

/-- The lower bound of the numbers that round to a magnitude. -/
def low (m : Magnitude) : ℚ :=
  (m.mantissa - if m.IsLowest then 1 / 4 else 1 / 2) * 2 ^ m.exponent

/-- The upper bound of the numbers that round to a magnitude. -/
def high (m : Magnitude) : ℚ :=
  (m.mantissa + 1 / 2) * 2 ^ m.exponent

/-- A number lies in the rounding interval of a magnitude. -/
def Covers (m : Magnitude) (x : ℚ) : Prop :=
  if m.mantissa % 2 = 0 then m.low ≤ x ∧ x ≤ m.high else m.low < x ∧ x < m.high

variable {m : Magnitude} {x : ℚ}

/-- A covered number lies between the bounds. -/
theorem Covers.bounds (h : m.Covers x) : m.low ≤ x ∧ x ≤ m.high := by
  unfold Covers at h
  split at h
  · exact h
  · exact ⟨h.1.le, h.2.le⟩

/-- A number strictly between the bounds is covered. -/
theorem covers_of_lt (hlow : m.low < x) (hhigh : x < m.high) : m.Covers x := by
  unfold Covers
  split
  · exact ⟨hlow.le, hhigh.le⟩
  · exact ⟨hlow, hhigh⟩

/-- A power of two covers what lies between its bounds. -/
theorem covers_iff_of_is_lowest (h : m.IsLowest) :
    m.Covers x ↔ (2 ^ 52 - 1 / 4) * 2 ^ m.exponent ≤ x ∧ x ≤ (2 ^ 52 + 1 / 2) * 2 ^ m.exponent := by
  have heven : m.mantissa % 2 = 0 := by
    rw [h.1]
    norm_num
  rw [Covers, if_pos heven, low, high, if_pos h, h.1]
  norm_num

/-- Any other magnitude covers what is nearest to its mantissa on its scale. -/
theorem covers_iff_of_not_is_lowest (h : ¬ m.IsLowest) :
    m.Covers x ↔ IsNearestInt m.mantissa (x / 2 ^ m.exponent) := by
  have hpow : (0 : ℚ) < 2 ^ m.exponent := by positivity
  rw [Covers, IsNearestInt, low, high, if_neg h, le_div_iff₀ hpow, div_le_iff₀ hpow,
    lt_div_iff₀ hpow, div_lt_iff₀ hpow]

/-- A mantissa with an exponent, where a mantissa that is one too large is carried. -/
def carried (q : ℕ) (e : ℤ) : Magnitude :=
  if q = Nat.pow 2 mantissaBits then ⟨Nat.pow 2 (mantissaBits - 1), e + 1⟩ else ⟨q, e⟩

/-- A mantissa that is one too large is carried. -/
theorem carried_full (e : ℤ) : carried (2 ^ 53) e = ⟨2 ^ 52, e + 1⟩ :=
  if_pos rfl

/-- A mantissa that is not too large is kept. -/
theorem carried_of_lt {q : ℕ} (h : q < 2 ^ 53) (e : ℤ) : carried q e = ⟨q, e⟩ :=
  if_neg h.ne

variable {k : ℤ} {q : ℕ}

/-- A nearest integer on the scale of a small number is less than the full mantissas. -/
theorem lt_of_nearest_of_small (hk : InBinade k x) (hsmall : k < minExponent)
    (hq : IsNearestInt q (x / 2 ^ minExponent)) : q < 2 ^ 53 := by
  have hpow : (0 : ℚ) < 2 ^ minExponent := by positivity
  have hle : (2 : ℚ) ^ (k + 1) ≤ 2 ^ minExponent := zpow_le_zpow_right₀ (by norm_num) (by omega)
  have hx : x / 2 ^ minExponent < 2 ^ 52 := by
    rw [zpow_add_one₀ (by norm_num)] at hle
    rw [div_lt_iff₀ hpow]
    linarith [hk.2]
  have hless : (q : ℚ) < 2 ^ 53 := by linarith [hq.bounds.1]
  exact_mod_cast hless

/-- A nearest integer on the scale of a number is a full mantissa, or one too large. -/
theorem bounds_of_nearest (hk : InBinade k x) (hq : IsNearestInt q (x / 2 ^ k)) :
    2 ^ 52 ≤ q ∧ q ≤ 2 ^ 53 := by
  have hpow : (0 : ℚ) < 2 ^ k := by positivity
  have hlow : 2 ^ 52 ≤ x / 2 ^ k := (le_div_iff₀ hpow).mpr hk.1
  have hhigh : x / 2 ^ k < 2 ^ 53 := (div_lt_iff₀ hpow).mpr hk.2
  obtain ⟨hqlow, hqhigh⟩ := hq.bounds
  have hless : (2 : ℚ) ^ 52 < q + 1 := by linarith
  have hmore : (q : ℚ) < 2 ^ 53 + 1 := by linarith
  have hless' : 2 ^ 52 < q + 1 := by exact_mod_cast hless
  have hmore' : q < 2 ^ 53 + 1 := by exact_mod_cast hmore
  omega

/-- A full mantissa at the exponent of a number covers it if it is nearest. -/
theorem full_covers (hk : InBinade k x) (hq : IsNearestInt q (x / 2 ^ k)) :
    (⟨q, k⟩ : Magnitude).Covers x := by
  have hpow : (0 : ℚ) < 2 ^ k := by positivity
  by_cases hlowest : (⟨q, k⟩ : Magnitude).IsLowest
  · rw [covers_iff_of_is_lowest hlowest]
    obtain rfl : q = 2 ^ 52 := hlowest.1
    have hhigh := hq.bounds.2
    rw [div_le_iff₀ hpow] at hhigh
    push_cast at hhigh
    simp only
    constructor <;> linarith [hk.1]
  · rw [covers_iff_of_not_is_lowest hlowest]
    exact hq

/-- A mantissa that is carried covers the number if it is nearest before. -/
theorem carried_full_covers (hk : InBinade k x) (hmin : minExponent ≤ k)
    (hq : IsNearestInt (2 ^ 53) (x / 2 ^ k)) : (⟨2 ^ 52, k + 1⟩ : Magnitude).Covers x := by
  have hpow : (0 : ℚ) < 2 ^ k := by positivity
  have hlow := hq.bounds.1
  rw [le_div_iff₀ hpow] at hlow
  push_cast at hlow
  rw [covers_iff_of_is_lowest ⟨rfl, by simp only; omega⟩, zpow_add_one₀ (by norm_num)]
  constructor <;> linarith [hk.2]

/-- A number is covered by the magnitude with the nearest mantissa. -/
theorem carried_covers (hk : InBinade k x) (hq : IsNearestInt q (x / 2 ^ max minExponent k)) :
    (carried q (max minExponent k)).IsRegular ∧ (carried q (max minExponent k)).Covers x := by
  rcases lt_or_ge k minExponent with hsmall | hlarge
  · rw [max_eq_left hsmall.le] at *
    have hlt := lt_of_nearest_of_small hk hsmall hq
    rw [carried_of_lt hlt, covers_iff_of_not_is_lowest fun h => lt_irrefl _ h.2]
    exact ⟨⟨hlt, .inr rfl, le_rfl⟩, hq⟩
  · rw [max_eq_right hlarge] at *
    obtain ⟨hfull, hle⟩ := bounds_of_nearest hk hq
    rcases hle.eq_or_lt with rfl | hlt
    · rw [carried_full]
      exact ⟨⟨by norm_num, .inl le_rfl, by simp only; omega⟩, carried_full_covers hk hlarge hq⟩
    · rw [carried_of_lt hlt]
      exact ⟨⟨hlt, .inl hfull, hlarge⟩, full_covers hk hq⟩

/-- A number below a power of two that covers it is nearest to it at the exponent below. -/
theorem nearest_below_lowest (hlowest : m.IsLowest) (h : m.Covers x)
    (hx : x < 2 ^ 52 * 2 ^ m.exponent) (hk : InBinade k x) :
    k = m.exponent - 1 ∧ IsNearestInt (2 ^ 53) (x / 2 ^ (m.exponent - 1)) := by
  have hbounds := (covers_iff_of_is_lowest hlowest).mp h
  have hpow : (0 : ℚ) < 2 ^ (m.exponent - 1) := by positivity
  have hdouble : (2 : ℚ) ^ m.exponent = 2 ^ (m.exponent - 1) * 2 := by
    rw [← zpow_add_one₀ (by norm_num), sub_add_cancel]
  rw [hdouble] at hbounds hx
  constructor
  · have hle : k ≤ m.exponent - 1 := hk.le_of_lt (by linarith)
    have hge : m.exponent - 1 ≤ k := hk.le_of_le (by linarith [hbounds.1])
    omega
  · refine is_nearest_int_of_even (by norm_num) ?_ ?_
    · rw [le_div_iff₀ hpow]
      push_cast
      linarith [hbounds.1]
    · rw [div_le_iff₀ hpow]
      push_cast
      linarith

/-- A magnitude that covers a number is nearest to it, unless the number is below a power of two. -/
theorem nearest_of_covers (h : m.Covers x) (hx : m.IsLowest → 2 ^ 52 * 2 ^ m.exponent ≤ x) :
    IsNearestInt m.mantissa (x / 2 ^ m.exponent) := by
  by_cases hlowest : m.IsLowest
  · have hpow : (0 : ℚ) < 2 ^ m.exponent := by positivity
    have hbounds := (covers_iff_of_is_lowest hlowest).mp h
    have hle := hx hlowest
    rw [hlowest.1]
    refine is_nearest_int_of_even (by norm_num) ?_ ?_
    · rw [le_div_iff₀ hpow]
      push_cast
      linarith
    · rw [div_le_iff₀ hpow]
      push_cast
      exact hbounds.2
  · exact (covers_iff_of_not_is_lowest hlowest).mp h

/-- A magnitude has the exponent of the numbers that it is nearest to. -/
theorem exponent_of_covers (hm : m.IsRegular) (h : m.Covers x)
    (hx : m.IsLowest → 2 ^ 52 * 2 ^ m.exponent ≤ x) (hk : InBinade k x) :
    max minExponent k = m.exponent := by
  have hpow : (0 : ℚ) < 2 ^ m.exponent := by positivity
  have hless : (m.mantissa : ℚ) + 1 ≤ 2 ^ 53 := by exact_mod_cast hm.lt
  have hhigh : x ≤ (m.mantissa + 1 / 2) * 2 ^ m.exponent := h.bounds.2
  have hle : k ≤ m.exponent := hk.le_of_lt (by nlinarith)
  rcases hm.min_le.eq_or_lt with heq | hmin
  · rw [← heq] at hle ⊢
    exact max_eq_left hle
  · have hfull : 2 ^ 52 ≤ m.mantissa := hm.full.resolve_right hmin.ne'
    have hreach : 2 ^ 52 * 2 ^ m.exponent ≤ x := by
      rcases hfull.eq_or_lt with heq | hmore
      · exact hx ⟨heq.symm, hmin⟩
      · have hmore' : (2 : ℚ) ^ 52 + 1 ≤ m.mantissa := by exact_mod_cast hmore
        have hlow := (nearest_of_covers h hx).bounds.1
        rw [le_div_iff₀ hpow] at hlow
        nlinarith
    have hge : m.exponent ≤ k := hk.le_of_le hreach
    rw [max_eq_right (by omega)]
    omega

/-- A magnitude that covers a number has the nearest mantissa. -/
theorem carried_of_covers (hm : m.IsRegular) (h : m.Covers x) (hk : InBinade k x)
    (hq : IsNearestInt q (x / 2 ^ max minExponent k)) : carried q (max minExponent k) = m := by
  by_cases hbelow : m.IsLowest ∧ x < 2 ^ 52 * 2 ^ m.exponent
  · -- The number is rounded up to the power of two from the exponent below.
    obtain ⟨hlowest, hx⟩ := hbelow
    obtain ⟨rfl, hnearest⟩ := nearest_below_lowest hlowest h hx hk
    rw [max_eq_right (by have := hlowest.2; omega)] at hq ⊢
    obtain rfl := hq.unique hnearest
    rw [carried_full, sub_add_cancel, ← hlowest.1]
  · have hx : m.IsLowest → 2 ^ 52 * 2 ^ m.exponent ≤ x := fun hlowest =>
      not_lt.mp fun hx => hbelow ⟨hlowest, hx⟩
    rw [exponent_of_covers hm h hx hk] at hq ⊢
    obtain rfl := hq.unique (nearest_of_covers h hx)
    exact carried_of_lt hm.lt m.exponent

end Magnitude

end TypeSuite.Number
