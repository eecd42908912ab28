import TypeSuite.Number.Binary64

/-!
# Shortest decimals

The shortest decimal of a positive magnitude has the fewest digits among those that round to it,
and is the nearest of these.
-/

namespace TypeSuite.Number

/-- A decimal `0.d₁d₂… * 10 ^ point`. -/
structure Decimal where
  digits : List Char
  point : Int
deriving DecidableEq, Repr

/-- The decimals that round to a magnitude lie between two quotients with the denominator of the
magnitude itself; the bounds belong to it when the mantissa is even. -/
structure RoundingInterval where
  low : Nat
  value : Nat
  high : Nat
  denominator : Nat
  closed : Bool

/-- The interval that rounds to a magnitude. Below a power of two the gap is half as wide. -/
def Magnitude.interval (m : Magnitude) : RoundingInterval :=
  let gap :=
    if m.mantissa = Nat.pow 2 (mantissaBits - 1) && minExponent < m.exponent then 1 else 2
  let scale := if 0 ≤ m.exponent then Nat.pow 2 m.exponent.toNat else 1
  let denominator := if 0 ≤ m.exponent then 4 else 4 * Nat.pow 2 (-m.exponent).toNat
  { low := (4 * m.mantissa - gap) * scale
    value := 4 * m.mantissa * scale
    high := (4 * m.mantissa + 2) * scale
    denominator
    closed := m.mantissa % 2 == 0 }

/-- Whether the quotient `num / den` lies in an interval. -/
def RoundingInterval.contains (i : RoundingInterval) (num den : Nat) : Bool :=
  let x := num * i.denominator
  if i.closed then i.low * den ≤ x && x ≤ i.high * den else i.low * den < x && x < i.high * den

/-- The power of ten just above the value of an interval. -/
def RoundingInterval.point (i : RoundingInterval) : Int :=
  ((Nat.toDigits 10 (i.value * Nat.pow 10 400 / i.denominator)).length : Int) - 400

/-- A multiple of `10 ^ e` in an interval, as a number of these steps: of the two that the value
lies between the one in the interval, or the nearer one when both are. -/
def RoundingInterval.onGrid? (i : RoundingInterval) (e : Int) : Option Nat :=
  let up := if 0 ≤ e then Nat.pow 10 e.toNat else 1
  let down := if 0 ≤ e then 1 else Nat.pow 10 (-e).toNat
  let below := i.value * down / (i.denominator * up)
  let inside (k : Nat) : Bool := i.contains (k * up) down
  match inside below, inside (below + 1) with
  | true, false => some below
  | false, true => some (below + 1)
  | false, false => none
  | true, true =>
    let num := i.value * down
    let den := i.denominator * up
    some (nearestEven num den)

/-- The shortest decimal that rounds to a positive magnitude. -/
def Magnitude.shortest (m : Magnitude) : Decimal :=
  let i := m.interval
  let point := i.point
  let found := (List.range 17).findSome? fun n =>
    let e := point - (n + 1 : Nat)
    (i.onGrid? e).map fun k => (k, e)
  match found with
  | some (k, e) =>
    let digits := Nat.toDigits 10 k
    ⟨(digits.reverse.dropWhile (· == '0')).reverse, digits.length + e⟩
  | none => ⟨[], point⟩

end TypeSuite.Number
