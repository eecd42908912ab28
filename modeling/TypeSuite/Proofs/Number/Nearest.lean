import TypeSuite.Proofs.Number.Digits
import TypeSuite.Proofs.Number.Rounding

/-!
# Correct rounding

`nearest_rounds` and `of_decimal_rounds` say that quotients and decimals are rounded to the
magnitude in whose interval they lie, or overflow behind the last interval. `Rounds.unique` says
that the number alone decides which, and `Covers.is_nearest` that no other double-precision number
is nearer.
-/

namespace TypeSuite.Number

open Magnitude

/-- The middle between the greatest magnitude and the one that would follow it. -/
def overflowBound : ℚ :=
  (2 ^ 53 - 1 / 2) * 2 ^ maxExponent

/-- What a number is rounded to: the magnitude that covers it, or nothing when it is too large. -/
def Rounds (x : ℚ) : Option Magnitude → Prop
  | some m => m.IsCanonical ∧ m.Covers x
  | none => overflowBound ≤ x

variable {m other : Magnitude} {x : ℚ}

/-- A magnitude with too large an exponent covers numbers that overflow. -/
theorem rounds_of_covers (hm : m.IsRegular) (h : m.Covers x) :
    Rounds x (if m.exponent ≤ maxExponent then some m else none) := by
  split
  case isTrue hmax => exact ⟨⟨hm, hmax⟩, h⟩
  case isFalse hmax =>
    have hpow : (2 : ℚ) ^ maxExponent * 2 ≤ 2 ^ m.exponent := by
      rw [← zpow_add_one₀ (by norm_num)]
      exact zpow_le_zpow_right₀ (by norm_num) (by omega)
    have hmin : minExponent < m.exponent := by
      simp only [minExponent, maxExponent] at *
      omega
    have hfull : 2 ^ 52 ≤ m.mantissa := hm.full.resolve_right hmin.ne'
    have hmantissa : (2 : ℚ) ^ 52 - 1 / 4 ≤ m.mantissa - if m.IsLowest then 1 / 4 else 1 / 2 := by
      split
      case isTrue hlowest => rw [hlowest.1]; norm_num
      case isFalse hlowest =>
        have hmore : 2 ^ 52 < m.mantissa := hfull.lt_of_ne fun heq => hlowest ⟨heq.symm, hmin⟩
        have : (2 : ℚ) ^ 52 + 1 ≤ m.mantissa := by exact_mod_cast hmore
        linarith
    have hlow := h.bounds.1
    rw [low] at hlow
    rw [Rounds, overflowBound]
    have hpos : (0 : ℚ) < 2 ^ m.exponent := by positivity
    generalize (2 : ℚ) ^ maxExponent = greatest at *
    generalize (2 : ℚ) ^ m.exponent = scale at *
    generalize (m.mantissa : ℚ) - (if m.IsLowest then 1 / 4 else 1 / 2) = mantissa at *
    nlinarith

/-- What a magnitude covers does not overflow. -/
theorem Magnitude.Covers.lt_overflow_bound (hm : m.IsCanonical) (h : m.Covers x) :
    x < overflowBound := by
  have hpow : (0 : ℚ) < 2 ^ m.exponent := by positivity
  have hle : (2 : ℚ) ^ m.exponent ≤ 2 ^ maxExponent :=
    zpow_le_zpow_right₀ (by norm_num) hm.le_max
  have hhigh : x ≤ (m.mantissa + 1 / 2) * 2 ^ m.exponent := h.bounds.2
  rw [overflowBound]
  generalize (2 : ℚ) ^ maxExponent = greatest at *
  by_cases heven : m.mantissa % 2 = 0
  · -- The greatest mantissa is odd, so an even one is smaller.
    have hlt := hm.lt
    have hless : m.mantissa + 2 ≤ 2 ^ 53 := by omega
    have hless' : (m.mantissa : ℚ) + 2 ≤ 2 ^ 53 := by exact_mod_cast hless
    generalize (2 : ℚ) ^ m.exponent = scale at *
    nlinarith
  · have hless : (m.mantissa : ℚ) + 1 ≤ 2 ^ 53 := by exact_mod_cast hm.lt
    rw [Covers, if_neg heven, high] at h
    have hhigh' := h.2
    generalize (2 : ℚ) ^ m.exponent = scale at *
    nlinarith

/-- Rounding a positive quotient scales it to its exponent and takes the nearest integer there. -/
theorem nearest_eq {num den n d : ℕ} {e : ℤ} (hnum : num ≠ 0) (he : quotientExponent num den = e)
    (hscaled : scaled num den e = (n, d)) : nearest? num den =
      if (carried (nearestEven n d) e).exponent ≤ maxExponent then
        some (carried (nearestEven n d) e)
      else none := by
  unfold nearest?
  rw [if_neg hnum, he]
  extract_lets exponent
  have hexponent : exponent = e := rfl
  clear_value exponent
  rw [hexponent, hscaled]
  rfl

/-- A positive quotient is covered by one magnitude, to which it is rounded. -/
theorem nearest_spec {num den : ℕ} (hnum : 0 < num) (hden : 0 < den) :
    ∃ m : Magnitude, (m.IsRegular ∧ m.Covers ((num : ℚ) / den)) ∧
      (∀ other : Magnitude, other.IsRegular → other.Covers ((num : ℚ) / den) → other = m) ∧
      nearest? num den = if m.exponent ≤ maxExponent then some m else none := by
  obtain ⟨k, hk, hexponent⟩ := quotient_exponent_spec hnum hden
  obtain ⟨hpos, hvalue⟩ := scaled_spec num hden (max minExponent k)
  obtain ⟨⟨n, d⟩, hscaled⟩ : ∃ pair, scaled num den (max minExponent k) = pair := ⟨_, rfl⟩
  rw [hscaled] at hpos hvalue
  have hq := nearest_even_is_nearest n hpos
  rw [hvalue] at hq
  exact ⟨_, carried_covers hk hq, fun other hother h => (carried_of_covers hother h hk hq).symm,
    nearest_eq hnum.ne' hexponent hscaled⟩

/-- Zero and whatever is at most half of the least magnitude are rounded to zero. -/
theorem zero_rounds (hx : 0 ≤ x) (hsmall : x ≤ 1 / 2 * 2 ^ minExponent) :
    Rounds x (some ⟨0, minExponent⟩) := by
  have hpow : (0 : ℚ) < 2 ^ minExponent := by positivity
  refine ⟨⟨⟨by norm_num, .inr rfl, le_rfl⟩, by decide⟩, ?_⟩
  rw [covers_iff_of_not_is_lowest fun h => lt_irrefl _ h.2]
  refine is_nearest_int_of_even rfl ?_ ?_
  · have : 0 ≤ x / 2 ^ minExponent := div_nonneg hx hpow.le
    push_cast
    linarith
  · rw [div_le_iff₀ hpow]
    push_cast
    linarith

/-- A magnitude that covers zero is zero. -/
theorem eq_zero_of_covers (hm : m.IsRegular) (h : m.Covers 0) : m = ⟨0, minExponent⟩ := by
  obtain ⟨M, e⟩ := m
  have hpow : (0 : ℚ) < 2 ^ e := by positivity
  have hlow : ((M : ℚ) - if (⟨M, e⟩ : Magnitude).IsLowest then 1 / 4 else 1 / 2) * 2 ^ e ≤ 0 :=
    h.bounds.1
  have hmantissa : (M : ℚ) - (if (⟨M, e⟩ : Magnitude).IsLowest then 1 / 4 else 1 / 2) ≤ 0 :=
    nonpos_of_mul_nonpos_left hlow hpow
  have hless : (M : ℚ) < 1 := by split at hmantissa <;> linarith
  obtain rfl : M = 0 := Nat.lt_one_iff.mp (by exact_mod_cast hless)
  have hfull : 2 ^ 52 ≤ 0 ∨ e = minExponent := hm.full
  rw [hfull.resolve_left (by norm_num)]

/-- A number is covered by one magnitude. -/
theorem eq_of_covers (hx : 0 ≤ x) (hm : m.IsRegular) (h : m.Covers x) (hother : other.IsRegular)
    (h' : other.Covers x) : m = other := by
  rcases hx.eq_or_lt with rfl | hpos
  · rw [eq_zero_of_covers hm h, eq_zero_of_covers hother h']
  · have hnum : 0 < x.num.toNat := by
      have := Rat.num_pos.mpr hpos
      omega
    have hvalue : ((x.num.toNat : ℕ) : ℚ) / x.den = x := by
      have hcast : ((x.num.toNat : ℕ) : ℚ) = x.num := by
        exact_mod_cast Int.toNat_of_nonneg (Rat.num_nonneg.mpr hx)
      rw [hcast, Rat.num_div_den]
    obtain ⟨only, -, honly, -⟩ := nearest_spec hnum x.den_pos
    rw [hvalue] at honly
    rw [honly m hm h, honly other hother h']

/-- A number is rounded to one magnitude, or it overflows. -/
theorem Rounds.unique (hx : 0 ≤ x) {r r' : Option Magnitude} (h : Rounds x r) (h' : Rounds x r') :
    r = r' := by
  cases r with
  | some m =>
      cases r' with
      | some m' => rw [eq_of_covers hx h.1.toIsRegular h.2 h'.1.toIsRegular h'.2]
      | none => exact absurd h' (not_le.mpr (h.2.lt_overflow_bound h.1))
  | none =>
      cases r' with
      | some m' => exact absurd h (not_le.mpr (h'.2.lt_overflow_bound h'.1))
      | none => rfl

/-- A quotient is rounded to the magnitude that covers it. -/
theorem nearest_rounds (num : ℕ) {den : ℕ} (hden : 0 < den) :
    Rounds ((num : ℚ) / den) (nearest? num den) := by
  rcases num.eq_zero_or_pos with rfl | hnum
  · have hzero : nearest? 0 den = some ⟨0, minExponent⟩ := if_pos rfl
    rw [hzero, Nat.cast_zero, zero_div]
    exact zero_rounds le_rfl (by positivity)
  · obtain ⟨m, ⟨hm, hcovers⟩, -, hnearest⟩ := nearest_spec hnum hden
    rw [hnearest]
    exact rounds_of_covers hm hcovers

/-- A number of too small an order is rounded to zero. -/
theorem small_rounds {order : ℤ} (hx : 0 ≤ x) (hhigh : x < 10 ^ order) (hsmall : order < -330) :
    Rounds x (some ⟨0, minExponent⟩) := by
  have hleast : 2 ^ 1075 ≤ 10 ^ 331 := by decide +kernel
  refine zero_rounds hx ?_
  calc x ≤ 10 ^ order := hhigh.le
    _ ≤ 10 ^ (-331 : ℤ) := zpow_le_zpow_right₀ (by norm_num) (by omega)
    _ ≤ 2 ^ (-1075 : ℤ) := by
          rw [zpow_neg, zpow_neg]
          exact inv_anti₀ (by positivity) (by exact_mod_cast hleast)
    _ = 1 / 2 * 2 ^ (-1074 : ℤ) := by
          rw [one_div, ← zpow_neg_one, ← zpow_add₀ (by norm_num)]
          rfl

/-- A number of too large an order overflows. -/
theorem large_rounds {order : ℤ} (hlow : 10 ^ (order - 1) ≤ x) (hlarge : 310 < order) :
    Rounds x none := by
  have hgreatest : 2 ^ 1024 ≤ 10 ^ 310 := by decide +kernel
  calc overflowBound ≤ 2 ^ 53 * 2 ^ (971 : ℤ) := by
        rw [overflowBound, maxExponent]
        gcongr
        norm_num
    _ = 2 ^ (1024 : ℤ) := by rw [← zpow_natCast, ← zpow_add₀ (by norm_num)]; rfl
    _ ≤ 10 ^ (310 : ℤ) := by exact_mod_cast hgreatest
    _ ≤ 10 ^ (order - 1) := zpow_le_zpow_right₀ (by norm_num) (by omega)
    _ ≤ x := hlow

/-- A decimal is rounded to the magnitude that covers it. -/
theorem of_decimal_rounds (c : ℕ) (e : ℤ) : Rounds (c * 10 ^ e) (ofDecimal? c e) := by
  rcases c.eq_zero_or_pos with rfl | hc
  · rw [Nat.cast_zero, zero_mul]
    exact zero_rounds le_rfl (by positivity)
  obtain ⟨hlow, hhigh⟩ := length_to_digits_spec hc e
  unfold ofDecimal?
  extract_lets order
  change (10 : ℚ) ^ (order - 1) ≤ _ at hlow
  change _ < (10 : ℚ) ^ order at hhigh
  clear_value order
  split
  case isTrue hcond =>
    have hsmall : order < -330 := by simpa [hc.ne'] using hcond
    exact small_rounds (by positivity) hhigh hsmall
  case isFalse =>
    split
    case isTrue hlarge => exact large_rounds hlow hlarge
    case isFalse =>
      split
      case isTrue he =>
        obtain ⟨n, rfl⟩ := Int.eq_ofNat_of_zero_le he
        have hrounds := nearest_rounds (c * 10 ^ n) Nat.one_pos
        rw [Nat.cast_one, div_one, Nat.cast_mul, Nat.cast_pow, Nat.cast_ofNat] at hrounds
        rw [zpow_natCast]
        exact hrounds
      case isFalse he =>
        obtain ⟨n, rfl⟩ : ∃ n : ℕ, e = -(n : ℤ) := ⟨(-e).toNat, by omega⟩
        have hrounds := nearest_rounds c (Nat.pow_pos (n := n) (by norm_num : 0 < 10))
        rw [Nat.cast_pow, Nat.cast_ofNat] at hrounds
        rw [zpow_neg, zpow_natCast, ← div_eq_mul_inv, neg_neg]
        exact hrounds

/-- A decimal is rounded to a magnitude exactly if it is covered. -/
theorem of_decimal_eq_some_iff (hm : m.IsCanonical) (c : ℕ) (e : ℤ) :
    ofDecimal? c e = some m ↔ m.Covers ((c : ℚ) * 10 ^ e) := by
  have hrounds := of_decimal_rounds c e
  constructor
  · intro h
    rw [h] at hrounds
    exact hrounds.2
  · intro h
    have hsome : Rounds ((c : ℚ) * 10 ^ e) (some m) := ⟨hm, h⟩
    exact hrounds.unique (by positivity) hsome

/-! ## Neighbours -/

namespace Magnitude

/-- A magnitude lies strictly between its bounds. -/
theorem value_between (m : Magnitude) : m.low < m.value ∧ m.value < m.high := by
  have hpow : (0 : ℚ) < 2 ^ m.exponent := by positivity
  rw [low, high, value]
  constructor
  · split <;> linarith
  · linarith

/-- A magnitude covers the number that it stands for. -/
theorem covers_value (m : Magnitude) : m.Covers m.value :=
  covers_of_lt m.value_between.1 m.value_between.2

/-- A magnitude stands for no negative number. -/
theorem value_nonneg (m : Magnitude) : 0 ≤ m.value := by
  rw [value]
  positivity

/-- The integer that a magnitude is equal to. -/
theorem to_nat_eq_some_iff (m : Magnitude) (n : ℕ) : m.toNat? = some n ↔ m.value = n := by
  rw [toNat?, value]
  split
  case isTrue he =>
    obtain ⟨d, hd⟩ := Int.eq_ofNat_of_zero_le he
    rw [hd, Option.some_inj, zpow_natCast]
    norm_cast
  case isFalse he =>
    obtain ⟨d, hd⟩ : ∃ d : ℕ, m.exponent = -(d : ℤ) := ⟨(-m.exponent).toNat, by omega⟩
    have hpow : 0 < 2 ^ d := by positivity
    have hiff : (m.mantissa : ℚ) * 2 ^ (-(d : ℤ)) = n ↔ m.mantissa = n * 2 ^ d := by
      rw [zpow_neg, zpow_natCast, ← div_eq_mul_inv, div_eq_iff (by positivity)]
      norm_cast
    rw [hd, neg_neg, hiff]
    change (if m.mantissa % 2 ^ d = 0 then some (m.mantissa / 2 ^ d) else none) = some n ↔ _
    split
    case isTrue hmod =>
      rw [Option.some_inj, Nat.div_eq_iff_eq_mul_left hpow (Nat.dvd_of_mod_eq_zero hmod)]
    case isFalse hmod =>
      refine ⟨fun h => absurd h (by simp), fun h => ?_⟩
      rw [h, Nat.mul_mod_left] at hmod
      exact absurd rfl hmod

/-- A magnitude that covers an integer is equal to one. -/
theorem exists_nat_of_covers {k : ℕ} (h : m.Covers k) : ∃ n, m.toNat? = some n := by
  by_cases he : 0 ≤ m.exponent
  · exact ⟨_, if_pos he⟩
  · -- The integer is a whole number of steps, as the magnitude is, and less than a step away.
    obtain ⟨d, hd⟩ : ∃ d : ℕ, m.exponent = -(d : ℤ) := ⟨(-m.exponent).toNat, by omega⟩
    refine ⟨k, (to_nat_eq_some_iff m k).mpr ?_⟩
    have hpow : (0 : ℚ) < 2 ^ m.exponent := by positivity
    have hsteps : (k : ℚ) = ((k * 2 ^ d : ℕ) : ℚ) * 2 ^ m.exponent := by
      rw [hd, zpow_neg, zpow_natCast, Nat.cast_mul, Nat.cast_pow, Nat.cast_ofNat,
        mul_inv_cancel_right₀ (by positivity)]
    obtain ⟨hlow, hhigh⟩ := h.bounds
    have hhalf : m.mantissa - 1 / 2 ≤
        (m.mantissa : ℚ) - if m.IsLowest then 1 / 4 else 1 / 2 := by
      split <;> linarith
    rw [hsteps] at hlow hhigh
    have hbelow := hhalf.trans (le_of_mul_le_mul_right hlow hpow)
    have habove : ((k * 2 ^ d : ℕ) : ℚ) ≤ m.mantissa + 1 / 2 := le_of_mul_le_mul_right hhigh hpow
    have hless : (m.mantissa : ℚ) < (k * 2 ^ d + 1 : ℕ) := by
      rw [Nat.cast_succ]
      linarith
    have hmore : ((k * 2 ^ d : ℕ) : ℚ) < (m.mantissa + 1 : ℕ) := by
      rw [Nat.cast_succ]
      linarith
    have hle : m.mantissa < k * 2 ^ d + 1 := by exact_mod_cast hless
    have hge : k * 2 ^ d < m.mantissa + 1 := by exact_mod_cast hmore
    rw [hsteps, value, le_antisymm (Nat.lt_succ_iff.mp hle) (Nat.lt_succ_iff.mp hge)]

/-- No two magnitudes stand for the same number. -/
theorem eq_of_value (hm : m.IsRegular) (hother : other.IsRegular) (h : m.value = other.value) :
    m = other :=
  eq_of_covers m.value_nonneg hm m.covers_value hother (h ▸ other.covers_value)

/-- A greater magnitude is greater by one step at least. -/
theorem value_add_le (hm : m.IsRegular) (hother : other.IsRegular) (h : m.value < other.value) :
    m.value + 2 ^ m.exponent ≤ other.value := by
  obtain ⟨M, e⟩ := m
  obtain ⟨N, f⟩ := other
  simp only [value] at h ⊢
  have hpow : (0 : ℚ) < 2 ^ e := by positivity
  rcases le_or_gt e f with hle | hgt
  · -- Both are whole numbers of the same steps.
    obtain ⟨d, rfl⟩ : ∃ d : ℕ, f = e + d := ⟨(f - e).toNat, by omega⟩
    have hsplit : (N : ℚ) * 2 ^ (e + d) = (N * 2 ^ d) * 2 ^ e := by
      rw [zpow_add₀ (by norm_num), zpow_natCast]
      ring
    rw [hsplit] at h ⊢
    have hlt : M < N * 2 ^ d := by exact_mod_cast lt_of_mul_lt_mul_right h hpow.le
    have hstep : (M : ℚ) + 1 ≤ N * 2 ^ d := by exact_mod_cast hlt
    calc (M : ℚ) * 2 ^ e + 2 ^ e = (M + 1) * 2 ^ e := by ring
      _ ≤ N * 2 ^ d * 2 ^ e := by gcongr
  · have hmin : minExponent ≤ f := hother.min_le
    have hfull : 2 ^ 52 ≤ M := hm.full.resolve_right (hmin.trans_lt hgt).ne'
    have hfull' : (2 : ℚ) ^ 52 ≤ M := by exact_mod_cast hfull
    have hless : (N : ℚ) < 2 ^ 53 := by exact_mod_cast hother.lt
    have hdouble : (2 : ℚ) ^ f * 2 ≤ 2 ^ e := by
      rw [← zpow_add_one₀ (by norm_num)]
      exact zpow_le_zpow_right₀ (by norm_num) hgt
    have hpow' : (0 : ℚ) < 2 ^ f := by positivity
    nlinarith

/-- A smaller magnitude is smaller by one step at least, or by half a step below a power of two. -/
theorem le_value_sub (hm : m.IsRegular) (hother : other.IsRegular) (h : other.value < m.value) :
    other.value ≤ (m.mantissa - if m.IsLowest then 1 / 2 else 1) * 2 ^ m.exponent := by
  have hpow : (0 : ℚ) < 2 ^ m.exponent := by positivity
  have hpow' : (0 : ℚ) < 2 ^ other.exponent := by positivity
  rcases le_or_gt m.exponent other.exponent with hle | hgt
  · have hstep := value_add_le hother hm h
    have hscale : (2 : ℚ) ^ m.exponent ≤ 2 ^ other.exponent :=
      zpow_le_zpow_right₀ (by norm_num) hle
    have hvalue : m.value = m.mantissa * 2 ^ m.exponent := rfl
    split <;> nlinarith
  · have hmin : minExponent < m.exponent := hother.min_le.trans_lt hgt
    have hfull : 2 ^ 52 ≤ m.mantissa := hm.full.resolve_right hmin.ne'
    have hless : (other.mantissa : ℚ) + 1 ≤ 2 ^ 53 := by exact_mod_cast hother.lt
    have hdouble : (2 : ℚ) ^ other.exponent * 2 ≤ 2 ^ m.exponent := by
      rw [← zpow_add_one₀ (by norm_num)]
      exact zpow_le_zpow_right₀ (by norm_num) hgt
    have hbelow : other.value ≤ (2 ^ 52 - 1 / 2) * 2 ^ m.exponent := by
      rw [value]
      nlinarith
    refine hbelow.trans (mul_le_mul_of_nonneg_right ?_ hpow.le)
    split
    case isTrue hlowest => rw [hlowest.1]; norm_num
    case isFalse hlowest =>
      have hmore : 2 ^ 52 < m.mantissa := hfull.lt_of_ne fun heq => hlowest ⟨heq.symm, hmin⟩
      have : (2 : ℚ) ^ 52 + 1 ≤ m.mantissa := by exact_mod_cast hmore
      linarith

end Magnitude

/-- No double-precision magnitude is nearer to a number than this one, and another is as near only
if this one has the even mantissa. -/
def IsNearest (m : Magnitude) (x : ℚ) : Prop :=
  ∀ other : Magnitude, other.IsCanonical → other ≠ m →
    |x - m.value| ≤ |x - other.value| ∧
      (|x - m.value| = |x - other.value| → m.mantissa % 2 = 0)

/-- A magnitude is nearest to the numbers that it covers. -/
theorem Magnitude.Covers.is_nearest (hm : m.IsRegular) (h : m.Covers x) : IsNearest m x := by
  intro other hother hne
  have hpow : (0 : ℚ) < 2 ^ m.exponent := by positivity
  have hvalue : m.value = m.mantissa * 2 ^ m.exponent := rfl
  have hbounds := h.bounds
  have hinner (hodd : m.mantissa % 2 ≠ 0) : m.low < x ∧ x < m.high := by
    rwa [Covers, if_neg hodd] at h
  rcases lt_trichotomy m.value other.value with hless | heq | hmore
  · have hstep := value_add_le hm hother.toIsRegular hless
    have hhigh : m.high = m.value + 2 ^ m.exponent / 2 := by rw [high, hvalue]; ring
    have hfar : other.value - x ≤ |x - other.value| := by
      rw [abs_sub_comm]
      exact le_abs_self _
    refine ⟨(abs_le.mpr ⟨?_, ?_⟩).trans hfar, fun heq => ?_⟩
    · linarith
    · linarith [hbounds.2]
    · by_contra hnot
      have hlt : |x - m.value| < other.value - x :=
        abs_lt.mpr ⟨by linarith, by linarith [(hinner hnot).2]⟩
      linarith
  · exact absurd (eq_of_value hother.toIsRegular hm heq.symm) hne
  · have hstep := le_value_sub hm hother.toIsRegular hmore
    have hlow : other.value + m.value ≤ 2 * m.low := by
      rw [low, hvalue]
      split
      case isTrue hlowest =>
        rw [if_pos hlowest] at hstep
        linarith
      case isFalse hlowest =>
        rw [if_neg hlowest] at hstep
        linarith
    have hfar : x - other.value ≤ |x - other.value| := le_abs_self _
    refine ⟨(abs_le.mpr ⟨?_, ?_⟩).trans hfar, fun heq => ?_⟩
    · linarith [hbounds.1]
    · linarith
    · by_contra hnot
      have hlt : |x - m.value| < x - other.value :=
        abs_lt.mpr ⟨by linarith [(hinner hnot).1], by linarith⟩
      linarith

end TypeSuite.Number
