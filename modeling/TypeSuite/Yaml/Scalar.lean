import TypeSuite.Yaml.Cursor

/-!
# Written scalars

A scalar is written plainly, between quotes, or as a block of indented lines. Line ends inside it
are folded by the rules of its style.
-/

namespace TypeSuite.Yaml

/-- What a folded line end leaves: a space, or the further line ends behind it. -/
def foldBreak (first : Char) (more : List Char) : List Char :=
  if first != '\n' then first :: more
  else if more.isEmpty then [' ']
  else more

/-! ## Quoted scalars -/

namespace Quoted

/-- The line ends at a cursor with the blanks around them. A document mark among them is refused. -/
def breaks : Nat → Cursor → Option (List Char × Cursor)
  | 0, _ => none
  | count + 1, c =>
    if c.atDocumentMark then none
    else
      let c := c.skip fun ch => ch == ' ' || ch == '\t'
      match c.lineBreak? with
      | none => some ([], c)
      | some (ch, c) => (breaks count c).map fun r => (ch :: r.1, r.2)

/-- The characters that a backslash and a letter stand for. -/
def escapes : List (Char × Char) :=
  [('0', '\x00'), ('a', '\x07'), ('b', '\x08'), ('t', '\t'), ('\t', '\t'), ('n', '\n'),
   ('v', '\x0b'), ('f', '\x0c'), ('r', '\r'), ('e', '\x1b'), (' ', ' '), ('\x22', '\x22'),
   ('\\', '\\'), ('/', '/'), ('N', '\u0085'), ('_', '\u00a0'), ('L', '\u2028'),
   ('P', '\u2029')]

/-- The number of hexadecimal digits behind a backslash and a letter. -/
def escapeWidth? (letter : Char) : Option Nat :=
  match letter with
  | 'x' => some 2
  | 'u' => some 4
  | 'U' => some 8
  | _ => none

/-- The value of a hexadecimal digit. -/
def hexValue? (c : Char) : Option Nat :=
  if '0' ≤ c && c ≤ '9' then some (c.toNat - 48)
  else if 'a' ≤ c && c ≤ 'f' then some (c.toNat - 87)
  else if 'A' ≤ c && c ≤ 'F' then some (c.toNat - 55)
  else none

/-- The number that hexadecimal digits denote. -/
def hexNumber? (digits : List Char) : Option Nat :=
  digits.foldlM (fun n d => (hexValue? d).map (16 * n + ·)) 0

/-- The character of a number; a replacement where there is none. -/
def charOf (n : Nat) : Char :=
  if n.isValidChar then Char.ofNat n else '\ufffd'

/-- What an escape stands for, from the cursor behind its backslash. -/
def escape (count : Nat) (c : Cursor) : Option (List Char × Cursor) :=
  match escapes.lookup c.char, escapeWidth? c.char, c.lineBreak? with
  | some ch, _, _ => some ([ch], c.step)
  | none, some width, _ => do
    let c := c.step
    let n ← hexNumber? ((List.range width).map c.ahead)
    return ([charOf n], c.advance width)
  | none, none, some (_, c) => breaks count c
  | none, none, none => none

/-- The text of a quoted scalar up to its closing quote. -/
def content (double : Bool) : Nat → Cursor → Option (List Char × Cursor)
  | 0, _ => none
  | count + 1, c =>
    let ch := c.char
    let go (chunk : List Char) (c : Cursor) : Option (List Char × Cursor) :=
      (content double count c).map fun r => (chunk ++ r.1, r.2)
    if isEnd ch then none
    else if !double && ch == '\'' then
      if c.ahead 1 == '\'' then go ['\''] (c.advance 2) else some ([], c.step)
    else if double && ch == '\x22' then some ([], c.step)
    else if double && ch == '\\' then do
      let (chunk, c) ← escape c.rest.length c.step
      go chunk c
    else if ch == ' ' || ch == '\t' || isBreak ch then
      let (blanks, c) := c.span fun ch => ch == ' ' || ch == '\t'
      match c.lineBreak? with
      | none => go blanks c
      | some (first, c) => do
        let (more, c) ← breaks (c.rest.length + 1) c
        go (foldBreak first more) c
    else go [ch] c.step

end Quoted

/-- The text of a quoted scalar from its opening quote on. -/
def quotedScalar (c : Cursor) : Option (String × Cursor) :=
  (Quoted.content (c.char == '\x22') c.rest.length c.step).map fun r => (String.ofList r.1, r.2)

/-! ## Plain scalars -/

namespace Plain

/-- The brackets and the comma, which end a plain scalar inside brackets. -/
def isFlowMark (c : Char) : Bool :=
  c == ',' || c == '[' || c == ']' || c == '\x7b' || c == '\x7d'

/-- The number of characters of a plain scalar up to the next gap or mark. -/
def wordLength (flow : Bool) : List Char → Nat
  | [] => 0
  | ch :: rest =>
    let next := rest.headD '\x00'
    if isGap ch then 0
    else if ch == ':' && (isGap next || (flow && isFlowMark next)) then 0
    else if flow && (isFlowMark ch || ch == '?') then 0
    else wordLength flow rest + 1

/-- The further line ends at a cursor behind a first one, with the spaces around them; `none` in
front of a document mark. -/
def breaks : Nat → Cursor → Option (List Char) × Cursor
  | 0, c => (some [], c)
  | count + 1, c =>
    if c.char == ' ' then breaks count c.step
    else match c.lineBreak? with
      | none => (some [], c)
      | some (ch, c) =>
        if c.atDocumentMark then (none, c)
        else
          let (more, c) := breaks count c
          (more.map (ch :: ·), c)

/-- The gap at a cursor inside a plain scalar: what it leaves, the cursor behind it, and whether a
line ended in it. Nothing is left when the scalar cannot go on. -/
def gap (c : Cursor) : List Char × Cursor × Bool :=
  let (blanks, c) := c.span (· == ' ')
  match c.lineBreak? with
  | none => (blanks, c, false)
  | some (first, c) =>
    if c.atDocumentMark then ([], c, true)
    else match breaks (c.rest.length + 1) c with
      | (none, c) => ([], c, true)
      | (some more, c) => (foldBreak first more, c, true)

/-- The text of a plain scalar, the cursor behind it, and whether a line ended behind it. -/
def content (flow : Bool) (indent : Nat) : Nat → Cursor → List Char × Cursor × Bool
  | 0, c => ([], c, false)
  | count + 1, c =>
    let length := wordLength flow c.rest
    let word := c.rest.take length
    let (left, behind, ended) := gap (c.advance length)
    if left.isEmpty || behind.char == '#' || (!flow && behind.column < indent) ||
        wordLength flow behind.rest == 0 then (word, behind, ended)
    else
      let (more, c, ended) := content flow indent count behind
      (word ++ left ++ more, c, ended)

end Plain

/-- The text of a plain scalar at a cursor, the cursor behind it, and whether a line ended behind
it. Outside of brackets its lines have to be indented by `indent`. -/
def plainScalar (flow : Bool) (indent : Nat) (c : Cursor) : String × Cursor × Bool :=
  let (text, c, ended) := Plain.content flow indent (c.rest.length + 1) c
  (String.ofList text, c, ended)

/-! ## Block scalars -/

namespace Block

/-- The header of a block scalar: whether the line ends at its end are kept, where that is said,
and its indentation, where that is given. -/
structure Header where
  keep : Option Bool
  indent : Option Nat

/-- Whether line ends are kept, by a sign. -/
def keepOf? (c : Char) : Option Bool :=
  if c == '+' then some true else if c == '-' then some false else none

/-- The number that a digit gives. -/
def digit? (c : Char) : Option Nat :=
  if '0' ≤ c && c ≤ '9' then some (c.toNat - 48) else none

/-- The header at a cursor, in either order. -/
def header (c : Cursor) : Option (Header × Cursor) := do
  let (h, c) : Header × Cursor := match keepOf? c.char, digit? c.char with
    | some keep, _ =>
      match digit? c.step.char with
      | some n => (⟨some keep, some n⟩, c.advance 2)
      | none => (⟨some keep, none⟩, c.step)
    | none, some n =>
      match keepOf? c.step.char with
      | some keep => (⟨some keep, some n⟩, c.advance 2)
      | none => (⟨none, some n⟩, c.step)
    | none, none => (⟨none, none⟩, c)
  if h.indent = some 0 then none
  else if c.char == ' ' || isBreakOrEnd c.char then some (h, c)
  else none

/-- The cursor behind the rest of the header's line. -/
def headerEnd (c : Cursor) : Option Cursor :=
  let c := (c.skip (· == ' ')).skipComment
  if isEnd c.char then some c else c.lineBreak?.map (·.2)

/-- The line ends in front of the first line, and the widest indentation among them. -/
def leading : Nat → Nat → Cursor → List Char × Nat × Cursor
  | 0, widest, c => ([], widest, c)
  | count + 1, widest, c =>
    if c.char == ' ' then leading count (max widest c.step.column) c.step
    else match c.lineBreak? with
      | none => ([], widest, c)
      | some (ch, c) =>
        let (more, widest, c) := leading count widest c
        (ch :: more, widest, c)

/-- A cursor moved over spaces up to a column. -/
def indentTo (column : Nat) : Nat → Cursor → Cursor
  | 0, c => c
  | count + 1, c =>
    if c.column < column && c.char == ' ' then indentTo column count c.step else c

/-- The line ends at a cursor with the indentation of their lines. -/
def breaks (indent : Nat) : Nat → Cursor → List Char × Cursor
  | 0, c => ([], c)
  | count + 1, c =>
    let c := indentTo indent indent c
    match c.lineBreak? with
    | none => ([], c)
    | some (ch, c) =>
      let (more, c) := breaks indent count c
      (ch :: more, c)

/-- The lines of a block scalar: its text up to the last line, the end of that line, the line ends
behind it, and the cursor behind them. -/
def lines (folded : Bool) (indent : Nat) :
    Nat → List Char → Cursor → List Char × List Char × List Char × Cursor
  | 0, before, c => ([], [], before, c)
  | count + 1, before, c =>
    if c.column == indent && !isEnd c.char then
      let isText (ch : Char) : Bool := ch != ' ' && ch != '\t'
      let startsText := isText c.char
      let (text, c) := c.span fun ch => !isBreak ch
      let (lineEnd, c) := match c.lineBreak? with
        | some (ch, c) => ([ch], c)
        | none => ([], c)
      let (after, c) := breaks indent (c.rest.length + 1) c
      if c.column == indent && !isEnd c.char then
        let joint :=
          if folded && lineEnd == ['\n'] && startsText && isText c.char then
            if after.isEmpty then [' '] else []
          else lineEnd
        let (more, lastEnd, tail, c) := lines folded indent count after c
        (before ++ text ++ joint ++ more, lastEnd, tail, c)
      else (before ++ text, lineEnd, after, c)
    else ([], [], before, c)

end Block

/-- The text of a block scalar from its mark on, inside a block of the given indentation. -/
def blockScalar (folded : Bool) (least : Nat) (c : Cursor) : Option (String × Cursor) := do
  let (header, c) ← Block.header c.step
  let c ← Block.headerEnd c
  let least := max least 1
  let count := c.rest.length + 1
  let (before, indent, c) := match header.indent with
    | some n =>
      let indent := least + n - 1
      let (before, c) := Block.breaks indent count c
      (before, indent, c)
    | none =>
      let (before, widest, c) := Block.leading count 0 c
      (before, max least widest, c)
  let (text, lastEnd, tail, c) := Block.lines folded indent count before c
  let text := text ++
    (if header.keep = some false then [] else lastEnd) ++
    (if header.keep = some true then tail else [])
  return (String.ofList text, c)

end TypeSuite.Yaml
