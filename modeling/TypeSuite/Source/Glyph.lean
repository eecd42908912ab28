/-!
# Placed characters

A source is read as characters that know which bytes they cover. A byte that belongs to no
character is read as a replacement character of one byte, which may stand in comments and quoted
texts but in nothing else.
-/

namespace TypeSuite.Source

/-- A character with its place in the source. -/
structure Glyph where
  char : Char
  /-- The first byte of the character. -/
  start : Nat
  /-- The byte after the character. -/
  stop : Nat
  row : Nat
  column : Nat
deriving Inhabited, Repr

/-- The character of bytes that belong to none. -/
def replacement : Char := '\uFFFD'

/-- Whether a glyph stands for a byte that belongs to no character. -/
def Glyph.isBroken (g : Glyph) : Bool :=
  g.char == replacement && g.stop == g.start + 1

/-- The glyph at a byte offset, which the source reaches. -/
def glyphAt (source : ByteArray) (offset row column : Nat) : Glyph :=
  match source.utf8DecodeChar? offset with
  | some c => ⟨c, offset, offset + c.utf8Size, row, column⟩
  | none => ⟨replacement, offset, offset + 1, row, column⟩

/-- Appends the glyphs from a byte offset on, at most `count` of them. -/
def collectGlyphs (source : ByteArray) :
    (count offset row column : Nat) → Array Glyph → Array Glyph
  | 0, _, _, _, acc => acc
  | count + 1, offset, row, column, acc =>
    if offset < source.size then
      let g := glyphAt source offset row column
      let acc := acc.push g
      if g.char = '\n' then collectGlyphs source count g.stop (row + 1) 0 acc
      else collectGlyphs source count g.stop row (column + (g.stop - g.start)) acc
    else acc

/-- The characters of a source with their places. -/
def glyphs (source : ByteArray) : List Glyph :=
  (collectGlyphs source source.size 0 0 0 #[]).toList

/-- White space between tokens, the byte order mark and the invisible spaces included. -/
def isSpace (c : Char) : Bool :=
  let n := c.toNat
  (9 ≤ n && n ≤ 13) || n == 0x20 || n == 0x85 || n == 0xa0 || n == 0x1680 ||
    (0x2000 ≤ n && n ≤ 0x200b) || n == 0x2028 || n == 0x2029 || n == 0x202f || n == 0x205f ||
    n == 0x2060 || n == 0x3000 || n == 0xfeff

/-- The ASCII characters that can stand in no name. -/
def nameBreakers : List Char :=
  [':', ';', '\x60', '\x22', '\x27', '@', '#', '.', ',', '|', '^', '&', '<', '=', '>', '+', '-',
   '*', '/', '\\', '%', '?', '!', '~', '(', ')', '[', ']', '\x7b', '\x7d']

/-- Whether a character may continue a name. -/
def isNameChar (c : Char) : Bool :=
  0x1f < c.toNat && !isSpace c && !nameBreakers.contains c

/-- Whether a glyph continues a name. -/
def Glyph.continuesName (g : Glyph) : Bool :=
  isNameChar g.char && !g.isBroken

/-- Whether a glyph begins a name. -/
def Glyph.beginsName (g : Glyph) : Bool :=
  g.continuesName && !g.char.isDigit

end TypeSuite.Source
