import TypeSuite.Text.Printable
import TypeSuite.Text.Quoted

/-!
# Displayed text

Reports show a text between quotes, on one line and with printable characters only.
-/

namespace TypeSuite.Text

/-- The lower-case hexadecimal digits of a number, at least `width` of them. -/
def hexDigits (width n : Nat) : List Char :=
  let digits := Nat.toDigits 16 n
  List.replicate (width - digits.length) '0' ++ digits

/-- How a character is shown between the given quotes. -/
def displayChar (mark c : Char) : List Char :=
  if c = mark || c = '\\' then ['\\', c]
  else if c = '\t' then ['\\', 't']
  else if c = '\n' then ['\\', 'n']
  else if c = '\r' then ['\\', 'r']
  else if isPrintable c then [c]
  else if c.toNat < 0x100 then '\\' :: 'x' :: hexDigits 2 c.toNat
  else if c.toNat < 0x10000 then '\\' :: 'u' :: hexDigits 4 c.toNat
  else '\\' :: 'U' :: hexDigits 8 c.toNat

/-- The quote that a text is shown between: the double one if that saves escaping. -/
def displayMark (text : List Char) : Char :=
  if text.contains '\'' && !text.contains '\x22' then '\x22' else '\''

/-- A text as it is shown in reports. -/
def display (text : String) : String :=
  let mark := displayMark text.toList
  String.ofList (mark :: text.toList.flatMap (displayChar mark) ++ [mark])

end TypeSuite.Text
