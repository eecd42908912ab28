/-!
# Upper case

Level names are compared in upper case. All of them are ASCII, so it is enough to know which
characters have an upper case in ASCII.
-/

namespace TypeSuite.Text

/-- The upper case of a character, when that is ASCII; other characters are left alone. -/
def upperChar (c : Char) : List Char :=
  match c.toNat with
  | 0xdf => ['S', 'S']
  | 0x131 => ['I']
  | 0x17f => ['S']
  | 0xfb00 => ['F', 'F']
  | 0xfb01 => ['F', 'I']
  | 0xfb02 => ['F', 'L']
  | 0xfb03 => ['F', 'F', 'I']
  | 0xfb04 => ['F', 'F', 'L']
  | 0xfb05 => ['S', 'T']
  | 0xfb06 => ['S', 'T']
  | _ => [c.toUpper]

/-- A text in upper case, as far as that is ASCII. -/
def upper (text : String) : String :=
  String.ofList (text.toList.flatMap upperChar)

end TypeSuite.Text
