import TypeSuite.Number.Numeral

/-!
# Double-precision numbers

Numerals are rounded to the nearest double-precision number, ties to the even mantissa, in exact
integer arithmetic.
-/

namespace TypeSuite.Number

/-- A finite magnitude `mantissa * 2 ^ exponent`. -/
structure Magnitude where
  mantissa : Nat
  exponent : Int
deriving DecidableEq, Repr

/-- A double-precision number. -/
inductive Binary64 where
  | finite (negative : Bool) (magnitude : Magnitude)
  | infinite (negative : Bool)
  | undefined
deriving DecidableEq, Repr

/-- The bits of a mantissa. -/
def mantissaBits : Nat := 53

/-- The least exponent, that of the subnormal numbers. -/
def minExponent : Int := -1074

/-- The greatest exponent. -/
def maxExponent : Int := 971

/-- The quotient `num / (den * 2 ^ e)` as a numerator and a denominator. -/
def scaled (num den : Nat) (e : Int) : Nat × Nat :=
  if 0 ≤ e then (num, den * Nat.pow 2 e.toNat) else (num * Nat.pow 2 (-e).toNat, den)

/-- The integer nearest to a quotient; a half goes to the even neighbour. -/
def nearestEven (num den : Nat) : Nat :=
  let q := num / den
  let r := num % den
  if 2 * r < den || (2 * r == den && q % 2 == 0) then q else q + 1

/-- The exponent at which a positive quotient has a full mantissa, or the least exponent. -/
def quotientExponent (num den : Nat) : Int :=
  let guess : Int := (num.log2 : Int) - den.log2 - (mantissaBits - 1 : Nat)
  let (n, d) := scaled num den guess
  max minExponent (if n < d * Nat.pow 2 (mantissaBits - 1) then guess - 1 else guess)

/-- The magnitude nearest to a quotient; `none` when it overflows. -/
def Magnitude.nearest? (num den : Nat) : Option Magnitude :=
  if num = 0 then some ⟨0, minExponent⟩
  else
    let e := quotientExponent num den
    let (n, d) := scaled num den e
    let q := nearestEven n d
    let m : Magnitude :=
      if q = Nat.pow 2 mantissaBits then ⟨Nat.pow 2 (mantissaBits - 1), e + 1⟩ else ⟨q, e⟩
    if m.exponent ≤ maxExponent then some m else none

/-- The magnitude nearest to `coefficient * 10 ^ exponent`; `none` when it overflows. Numerals far
out of range are decided by their order of magnitude alone. -/
def Magnitude.ofDecimal? (coefficient : Nat) (exponent : Int) : Option Magnitude :=
  let order : Int := (Nat.toDigits 10 coefficient).length + exponent
  if coefficient = 0 || order < -330 then some ⟨0, minExponent⟩
  else if 310 < order then none
  else if 0 ≤ exponent then nearest? (coefficient * Nat.pow 10 exponent.toNat) 1
  else nearest? coefficient (Nat.pow 10 (-exponent).toNat)

/-- The double-precision number nearest to a numeral. -/
def Binary64.ofNumeral : Numeral → Binary64
  | .finite negative coefficient exponent =>
    match Magnitude.ofDecimal? coefficient exponent with
    | some m => .finite negative m
    | none => .infinite negative
  | .infinite negative => .infinite negative
  | .undefined => .undefined

/-- The integer that a magnitude is equal to, if there is one. -/
def Magnitude.toNat? (m : Magnitude) : Option Nat :=
  if 0 ≤ m.exponent then some (m.mantissa * Nat.pow 2 m.exponent.toNat)
  else
    let d := Nat.pow 2 (-m.exponent).toNat
    if m.mantissa % d = 0 then some (m.mantissa / d) else none

end TypeSuite.Number
