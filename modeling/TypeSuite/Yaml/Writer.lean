import TypeSuite.Yaml.Cursor
import TypeSuite.Yaml.Plain

/-!
# Writing documents

Texts are written plainly where they read back as themselves, otherwise between single quotes, and
between double quotes where escapes are needed. Long lines are broken at spaces.
-/

namespace TypeSuite.Yaml

/-- The most characters of a line before it is broken. -/
def lineWidth : Nat := 80

/-- A style of writing a text. -/
inductive Style where
  | plain | single | double
deriving DecidableEq, Repr

namespace Style

/-- Whether a character is a line end as far as the styles are concerned. -/
def endsLine (c : Char) : Bool :=
  c == '\n' || c == '\u0085' || c == '\u2028' || c == '\u2029'

/-- Whether a character has to be escaped. -/
def isSpecial (c : Char) : Bool :=
  !(c == '\n' || (0x20 ≤ c.toNat && c.toNat ≤ 0x7e))

/-- Whether a character at the front of a text would be read as a mark. -/
def marksFront (c : Char) (alone : Bool) : Bool :=
  "#,[]\x7b\x7d&*!|>'\"%@\x60".toList.contains c || ("?:-".toList.contains c && alone)

/-- Whether a mark stands among the characters behind another one. -/
def hasMark : Char → List Char → Bool
  | _, [] => false
  | before, c :: rest =>
    (c == ':' && isGap (rest.headD '\x00')) || (c == '#' && isGap before) || hasMark c rest

/-- Whether a text would be read as something else than a plain scalar. -/
def hasIndicators : List Char → Bool
  | [] => false
  | c :: rest =>
    "---".toList.isPrefixOf (c :: rest) || "...".toList.isPrefixOf (c :: rest) ||
      marksFront c (isGap (rest.headD '\x00')) || hasMark c rest

/-- Whether two neighbours of a text are of given sorts. -/
def hasPair (p q : Char → Bool) : List Char → Bool
  | c :: d :: rest => (p c && q d) || hasPair p q (d :: rest)
  | _ => false

/-- Whether a text begins or ends with a space or a line end. -/
def hasOuterBlank (text : List Char) : Bool :=
  let isBlank (c : Char) : Bool := c == ' ' || endsLine c
  text.head?.any isBlank || text.getLast?.any isBlank

/-- The style that a text is written in. -/
def of (text : String) : Style :=
  let cs := text.toList
  let isSpace (c : Char) : Bool := c == ' '
  if cs.any isSpecial || hasPair isSpace endsLine cs then .double
  else if hasPair endsLine isSpace cs then .double
  else if cs.any endsLine || hasOuterBlank cs || hasIndicators cs ||
      Plain.sortOf text != .text then .single
  else .plain

end Style

/-- The text written so far. -/
structure Page where
  /-- The written characters, the last one first. -/
  written : List Char
  column : Nat

namespace Page

/-- Adds characters that do not end a line. -/
def add (p : Page) (cs : List Char) : Page :=
  ⟨cs.reverse ++ p.written, p.column + cs.length⟩

/-- Ends the line. -/
def newLine (p : Page) : Page :=
  ⟨'\n' :: p.written, 0⟩

/-- Moves to a column of the next line, or of this one when nothing is on it yet. -/
def indentTo (p : Page) (column : Nat) : Page :=
  let p := if p.column = 0 then p else p.newLine
  p.add (List.replicate column ' ')

/-- The written text. -/
def text (p : Page) : String :=
  String.ofList p.written.reverse

end Page

/-- The run of characters at the front of a text that are on the same side of a condition. -/
def firstRun (p : Char → Bool) : List Char → List Char × List Char
  | [] => ([], [])
  | c :: rest => ((c :: rest).takeWhile (p · == p c), (c :: rest).dropWhile (p · == p c))

/-- Whether a single space may be written as a line break. -/
def breaksAt (p : Page) (run : List Char) : Bool :=
  run == [' '] && lineWidth < p.column

/-- Writes a plain scalar, whose further lines are indented. -/
def writePlain (indent : Nat) : Nat → Page → List Char → Page
  | 0, p, _ => p
  | count + 1, p, text =>
    let (run, rest) := firstRun (· == ' ') text
    if text.isEmpty then p
    else if breaksAt p run then writePlain indent count (p.indentTo indent) rest
    else writePlain indent count (p.add run) rest

/-- Writes line ends between single quotes: one more than they are. -/
def writeBreaks (indent : Nat) (count : Nat) (p : Page) : Page :=
  ((List.range (count + 1)).foldl (fun p _ => p.newLine) p).indentTo indent

/-- Writes a text between single quotes behind the opening one. Spaces at its ends are kept on
their lines. -/
def writeSingle (indent : Nat) (first : Bool) : Nat → Page → List Char → Page
  | 0, p, _ => p
  | _, p, [] => p.add ['\'']
  | count + 1, p, c :: text =>
    let text := c :: text
    if c == ' ' then
      let run := text.takeWhile (· == ' ')
      let rest := text.drop run.length
      let p := if breaksAt p run && !first && !rest.isEmpty then p.indentTo indent else p.add run
      writeSingle indent false count p rest
    else if c == '\n' then
      let run := text.takeWhile (· == '\n')
      writeSingle indent false count (writeBreaks indent run.length p) (text.drop run.length)
    else if c == '\'' then writeSingle indent false count (p.add ['\'', '\'']) (text.drop 1)
    else
      let run := text.takeWhile fun c => !(c == ' ' || c == '\n' || c == '\'')
      writeSingle indent false count (p.add run) (text.drop run.length)

/-- The letters that some characters are escaped by. -/
def escapeLetters : List (Char × Char) :=
  [('\x00', '0'), ('\x07', 'a'), ('\x08', 'b'), ('\t', 't'), ('\n', 'n'), ('\x0b', 'v'),
   ('\x0c', 'f'), ('\r', 'r'), ('\x1b', 'e'), ('\x22', '\x22'), ('\\', '\\'), ('\u0085', 'N'),
   ('\u00a0', '_'), ('\u2028', 'L'), ('\u2029', 'P')]

/-- The upper-case hexadecimal digits of a number, of a fixed width. -/
def hexDigits (width n : Nat) : List Char :=
  let digits := (Nat.toDigits 16 n).map Char.toUpper
  List.replicate (width - digits.length) '0' ++ digits

/-- The escape of a character, if it needs one. -/
def escape? (c : Char) : Option (List Char) :=
  match escapeLetters.lookup c with
  | some letter => some ['\\', letter]
  | none =>
    let n := c.toNat
    if 0x20 ≤ n && n ≤ 0x7e then none
    else if n ≤ 0xff then some ('\\' :: 'x' :: hexDigits 2 n)
    else if n ≤ 0xffff then some ('\\' :: 'u' :: hexDigits 4 n)
    else some ('\\' :: 'U' :: hexDigits 8 n)

/-- Breaks the line between double quotes, in front of some character. A space there is escaped, so
that it is not taken for indentation. -/
def breakDouble (indent : Nat) (p : Page) (next : Option Char) : Page :=
  let p := (p.add ['\\']).indentTo indent
  if next == some ' ' then p.add ['\\'] else p

/-- Writes a text between double quotes behind the opening one. The characters that are `pending`
are not written yet, the last one first. A long line is broken behind an escape, in front of the
character after one, or in front of a space, but never next to a quote. -/
def writeDouble (indent : Nat) (first : Bool) (pending : List Char) (p : Page) :
    List Char → Page
  | [] => (p.add pending.reverse).add ['\x22']
  | c :: rest =>
    let inside := !first && !rest.isEmpty
    match escape? c with
    | some escaped =>
      let p := (p.add pending.reverse).add escaped
      let p := if inside && lineWidth + 1 < p.column then breakDouble indent p rest.head? else p
      writeDouble indent false [] p rest
    | none =>
      if inside && (c == ' ' || pending.isEmpty) && lineWidth < p.column + pending.length then
        writeDouble indent false [c] (breakDouble indent (p.add pending.reverse) (some c)) rest
      else writeDouble indent false (c :: pending) p rest

/-- Writes a text as a scalar behind a space. -/
def writeScalar (indent : Nat) (p : Page) (text : String) : Page :=
  let cs := text.toList
  match Style.of text with
  | .plain => writePlain indent (cs.length + 1) (p.add [' ']) cs
  | .single => writeSingle indent true (cs.length + 1) (p.add [' ', '\'']) cs
  | .double => writeDouble indent true [] (p.add [' ', '\x22']) cs

/-- The column that the further lines of an entry's value begin at. -/
def valueIndent : Nat := 4

/-- Writes an entry of a section on lines of its own. -/
def writeEntry (p : Page) (e : String × String) : Page :=
  (writeScalar valueIndent (p.add ("  " ++ e.1 ++ ":").toList) e.2).newLine

/-- Writes a section and its entries. -/
def writeSection (p : Page) (s : String × List (String × String)) : Page :=
  let p := p.add (s.1 ++ ":").toList
  if s.2.isEmpty then (p.add " \x7b\x7d".toList).newLine else s.2.foldl writeEntry p.newLine

/-- The document of sections with texts under their keys. -/
def encode (sections : List (String × List (String × String))) : String :=
  (sections.foldl writeSection ⟨[], 0⟩).text

end TypeSuite.Yaml
