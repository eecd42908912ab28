import TypeSuite.Text.Blank
import TypeSuite.Text.Digit

/-!
# Decimal numerals

A numeral is an optional sign followed by digits with an optional point and exponent, or by a
name of infinity or of the undefined number. Blanks may surround it, and digits of every script
count.
-/

namespace TypeSuite.Number

/-- What a numeral denotes: `coefficient * 10 ^ exponent` with a sign, or a special value. -/
inductive Numeral where
  | finite (negative : Bool) (coefficient : Nat) (exponent : Int)
  | infinite (negative : Bool)
  | undefined
deriving DecidableEq, Repr

/-- The blanks allowed around a numeral. The ASCII separators are not among them. -/
def isNumeralBlank (c : Char) : Bool :=
  Text.isBlank c && !(0x1c ≤ c.toNat && c.toNat ≤ 0x1f)

/-- Drops the blanks around a numeral. -/
def stripNumeral (text : List Char) : List Char :=
  ((text.dropWhile isNumeralBlank).reverse.dropWhile isNumeralBlank).reverse

/-- Whether a text is the given lower-case name, in any mix of ASCII cases. -/
def isNamed (name : String) (text : List Char) : Bool :=
  text.map Char.toLower == name.toList

/-- Splits a leading sign off; the flag says whether it is a minus. -/
def splitSign : List Char → Bool × List Char
  | '-' :: rest => (true, rest)
  | '+' :: rest => (false, rest)
  | text => (false, text)

/-- Splits the longest run of digits off, as their values. -/
def splitDigits : List Char → List Nat × List Char
  | [] => ([], [])
  | c :: rest =>
    match Text.digitValue? c with
    | none => ([], c :: rest)
    | some d => let (ds, after) := splitDigits rest; (d :: ds, after)

/-- Reads an exponent mark with its digits, which must end the text. An absent exponent is zero. -/
def readExponent? : List Char → Option Int
  | [] => some 0
  | c :: rest =>
    if c == 'e' || c == 'E' then
      let (negative, body) := splitSign rest
      match splitDigits body with
      | (d :: ds, []) =>
        let n : Int := Text.ofDigits (d :: ds)
        some (if negative then -n else n)
      | _ => none
    else none

/-- Splits a point and the digits after it off. -/
def splitFraction : List Char → List Nat × List Char
  | '.' :: rest => splitDigits rest
  | text => ([], text)

/-- Reads an unsigned numeral with at least one digit before the exponent. -/
def readFinite? (negative : Bool) (text : List Char) : Option Numeral :=
  let (whole, afterWhole) := splitDigits text
  let (fraction, afterFraction) := splitFraction afterWhole
  if whole.isEmpty && fraction.isEmpty then none
  else (readExponent? afterFraction).map fun e =>
    .finite negative (Text.ofDigits (whole ++ fraction)) (e - fraction.length)

/-- Reads a numeral; `none` when the text is not one. -/
def Numeral.read? (text : String) : Option Numeral :=
  let (negative, body) := splitSign (stripNumeral text.toList)
  if isNamed "inf" body || isNamed "infinity" body then some (.infinite negative)
  else if isNamed "nan" body then some .undefined
  else readFinite? negative body

end TypeSuite.Number
