/-!
# Cursors

A cursor stands at a character of a document and knows its line and column. Behind the last
character it sees the null character, which no document contains.
-/

namespace TypeSuite.Yaml

/-- Whether a character may stand in a document. -/
def isAllowed (c : Char) : Bool :=
  let n := c.toNat
  n == 9 || n == 0xa || n == 0xd || (0x20 ≤ n && n ≤ 0x7e) || n == 0x85 ||
    (0xa0 ≤ n && n ≤ 0xfffd) || 0x10000 ≤ n

/-- Whether a character ends a line. -/
def isBreak (c : Char) : Bool :=
  c == '\n' || c == '\r' || c == '\u0085' || c == '\u2028' || c == '\u2029'

/-- Whether a character is the one behind the end of the document. -/
def isEnd (c : Char) : Bool :=
  c == '\x00'

/-- Whether a character ends a line or stands behind the end. -/
def isBreakOrEnd (c : Char) : Bool :=
  isBreak c || isEnd c

/-- Whether a character is a space, a tab, the end of a line or behind the end. -/
def isGap (c : Char) : Bool :=
  c == ' ' || c == '\t' || isBreakOrEnd c

/-- The mark at the start of some documents, which has no width. -/
def byteOrderMark : Char := '\ufeff'

/-- A place in a document. -/
structure Cursor where
  rest : List Char
  index : Nat
  line : Nat
  column : Nat

namespace Cursor

/-- The cursor at the start of a document. -/
def start (text : String) : Cursor :=
  ⟨text.toList, 0, 0, 0⟩

/-- The character at a cursor. -/
def char (c : Cursor) : Char :=
  c.rest.headD '\x00'

/-- The character some way ahead of a cursor. -/
def ahead (c : Cursor) (count : Nat) : Char :=
  (c.rest.drop count).headD '\x00'

/-- A cursor one character on. -/
def step (c : Cursor) : Cursor :=
  match c.rest with
  | [] => c
  | ch :: rest =>
    if isBreak ch && !(ch == '\r' && rest.head? == some '\n') then
      ⟨rest, c.index + 1, c.line + 1, 0⟩
    else ⟨rest, c.index + 1, c.line, if ch == byteOrderMark then c.column else c.column + 1⟩

/-- A cursor some characters on. -/
def advance (c : Cursor) : Nat → Cursor
  | 0 => c
  | count + 1 => c.step.advance count

/-- The characters at a cursor that a condition holds of, and the cursor behind them. -/
def span (p : Char → Bool) (c : Cursor) : List Char × Cursor :=
  let run := c.rest.takeWhile p
  (run, c.advance run.length)

/-- The cursor behind the characters that a condition holds of. -/
def skip (p : Char → Bool) (c : Cursor) : Cursor :=
  (c.span p).2

/-- The end of a line at a cursor, as it is kept, and the cursor behind it. -/
def lineBreak? (c : Cursor) : Option (Char × Cursor) :=
  let ch := c.char
  if ch == '\r' && c.ahead 1 == '\n' then some ('\n', c.advance 2)
  else if ch == '\u2028' || ch == '\u2029' then some (ch, c.step)
  else if isBreak ch then some ('\n', c.step)
  else none

/-- Whether a mark of three characters stands at a cursor on its own. -/
def atMark (mark : String) (c : Cursor) : Bool :=
  mark.toList.isPrefixOf c.rest && isGap (c.ahead 3)

/-- Whether the start or the end of a document is marked at a cursor. -/
def atDocumentMark (c : Cursor) : Bool :=
  c.atMark "---" || c.atMark "..."

/-- The cursor behind the comment that may stand at it, at the end of the line. -/
def skipComment (c : Cursor) : Cursor :=
  if c.char == '#' then c.skip fun ch => !isBreak ch else c

end Cursor

end TypeSuite.Yaml
