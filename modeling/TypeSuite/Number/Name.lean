import TypeSuite.Number.Shortest

/-!
# Names of numbers

A numeric property name stands for its value: integers are written in full, other numbers by their
shortest decimal.
-/

namespace TypeSuite.Number

/-- Decimals with their point in this range are written without an exponent. -/
def isPositional (point : Int) : Bool :=
  -4 < point && point ≤ 16

/-- An exponent with its sign and at least two digits. -/
def exponentText (e : Int) : List Char :=
  let digits := Nat.toDigits 10 e.natAbs
  (if e < 0 then '-' else '+') :: (if digits.length < 2 then '0' :: digits else digits)

/-- A decimal that is not an integer, as text. -/
def Decimal.text (d : Decimal) : List Char :=
  if isPositional d.point then
    if d.point ≤ 0 then '0' :: '.' :: List.replicate (-d.point).toNat '0' ++ d.digits
    else d.digits.take d.point.toNat ++ '.' :: d.digits.drop d.point.toNat
  else
    match d.digits with
    | [] => []
    | [c] => c :: 'e' :: exponentText (d.point - 1)
    | c :: rest => c :: '.' :: rest ++ 'e' :: exponentText (d.point - 1)

/-- A leading minus for a negative number. -/
def withSign (negative : Bool) (text : List Char) : List Char :=
  if negative then '-' :: text else text

/-- The name of a double-precision number. Both zeros have the same name. -/
def Binary64.name : Binary64 → String
  | .undefined => "nan"
  | .infinite negative => String.ofList (withSign negative "inf".toList)
  | .finite negative m =>
    match m.toNat? with
    | some n => String.ofList (withSign (negative && n != 0) (Nat.toDigits 10 n))
    | none => String.ofList (withSign negative m.shortest.text)

/-- A text without its digit separators. -/
def dropSeparators (text : String) : String :=
  String.ofList (text.toList.filter (· != '_'))

/-- The canonical name of a numeric property; a text that is no numeral names itself. -/
def canonicalName (text : String) : String :=
  match Numeral.read? (dropSeparators text) with
  | some numeral => (Binary64.ofNumeral numeral).name
  | none => text

end TypeSuite.Number
