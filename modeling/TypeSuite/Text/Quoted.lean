/-!
# Quoted text

Names are written between double quotes with control characters escaped, and quoted property
names are read back by undoing one layer of quotes and backslash escapes.
-/

namespace TypeSuite.Text

/-- A lower-case hexadecimal digit. -/
def hexDigit (n : Nat) : Char :=
  if n < 10 then Char.ofNat (n + 48) else Char.ofNat (n + 87)

/-- How a character is written between double quotes. Only the quote, the backslash and the
characters below the space are escaped. -/
def escapeChar (c : Char) : List Char :=
  match c with
  | '\x22' => ['\\', '\x22']
  | '\\' => ['\\', '\\']
  | '\n' => ['\\', 'n']
  | '\r' => ['\\', 'r']
  | '\t' => ['\\', 't']
  | '\x08' => ['\\', 'b']
  | '\x0c' => ['\\', 'f']
  | c =>
    if c.toNat < 0x20 then
      ['\\', 'u', '0', '0', hexDigit (c.toNat / 16), hexDigit (c.toNat % 16)]
    else [c]

/-- Writes a text between double quotes. -/
def quote (text : String) : String :=
  String.ofList ('\x22' :: text.toList.flatMap escapeChar ++ ['\x22'])

/-- The character that a backslash and the given character stand for. -/
def escapedChar (c : Char) : Char :=
  match c with
  | 'n' => '\n'
  | 'r' => '\r'
  | 't' => '\t'
  | 'b' => '\x08'
  | 'f' => '\x0c'
  | 'v' => '\x0b'
  | '0' => '\x00'
  | c => c

/-- Replaces every backslash and its following character by the character they stand for. -/
def unescape : List Char → List Char
  | '\\' :: c :: rest => escapedChar c :: unescape rest
  | c :: rest => c :: unescape rest
  | [] => []

/-- The characters that open and close a quoted name. -/
def isQuote (c : Char) : Bool :=
  c == '\x22' || c == '\x27' || c == '\x60'

/-- Drops one pair of equal quotes around a text of at least two characters. -/
def stripQuotes : List Char → List Char
  | [] => []
  | [c] => [c]
  | c :: d :: rest =>
    if isQuote c && (d :: rest).getLast? == some c then (d :: rest).dropLast else c :: d :: rest

/-- The value of a quoted name; a text without quotes keeps its ends. -/
def unquote (text : String) : String :=
  String.ofList (unescape (stripQuotes text.toList))

end TypeSuite.Text
