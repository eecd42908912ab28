import TypeSuite.Yaml.Scalar

/-!
# Tokens

A document is cut into tokens. Indentation opens and closes blocks, and a scalar turns out to be a
key only when the colon behind it is met, so the token that marks a key may come in front of tokens
that are there already.
-/

namespace TypeSuite.Yaml

/-- A token of a document. -/
inductive Token where
  | directive (name : String) (handle tagPrefix : String)
  | documentStart
  | documentEnd
  | streamEnd
  | blockSequenceStart
  | blockMappingStart
  | blockEnd
  | flowSequenceStart
  | flowSequenceEnd
  | flowMappingStart
  | flowMappingEnd
  | flowEntry
  | blockEntry
  | key
  | value
  | alias (name : String)
  | anchor (name : String)
  /-- A tag: its handle, if it has one, and its suffix. -/
  | tag (handle : Option String) (suffix : String)
  | scalar (text : String) (plain : Bool)
deriving DecidableEq, Repr, Inhabited

namespace Token

/-- Whether a character may stand in the name of an anchor or a directive. -/
def isNameChar (c : Char) : Bool :=
  c.isAlphanum || c == '-' || c == '_'

/-- A name at a cursor; it has at least one character. -/
def name? (c : Cursor) : Option (String × Cursor) :=
  let (name, c) := c.span isNameChar
  if name.isEmpty then none else some (String.ofList name, c)

/-- Whether the name of an anchor may end in front of a character. -/
def endsAnchor (c : Char) : Bool :=
  isGap c || "?:,]\x7d%@\x60".toList.contains c

/-- The name of an anchor or an alias behind its mark. -/
def anchorName? (c : Cursor) : Option (String × Cursor) := do
  let (name, c) ← name? c
  if endsAnchor c.char then some (name, c) else none

/-- Whether a tag or a directive's part ends in front of a character. -/
def endsPart (c : Char) : Bool :=
  c == ' ' || isBreakOrEnd c

/-- Whether a character may stand in a tag. -/
def isTagChar (c : Char) : Bool :=
  c.isAlphanum || "-;/?:@&=+$,_.!~*'()[]".toList.contains c

/-- The bytes that percent signs and hexadecimal digits stand for at a cursor. -/
def escapedBytes : Nat → Cursor → Option (List UInt8 × Cursor)
  | 0, c => some ([], c)
  | count + 1, c =>
    if c.char == '%' then do
      let n ← Quoted.hexNumber? [c.ahead 1, c.ahead 2]
      let (more, c) ← escapedBytes count (c.advance 3)
      return (n.toUInt8 :: more, c)
    else some ([], c)

/-- The text of a tag at a cursor. -/
def tagText : Nat → Cursor → Option (List Char × Cursor)
  | 0, c => some ([], c)
  | count + 1, c =>
    if c.char == '%' then do
      let (bytes, c) ← escapedBytes c.rest.length c
      let text ← String.fromUTF8? ⟨bytes.toArray⟩
      let (more, c) ← tagText count c
      return (text.toList ++ more, c)
    else if isTagChar c.char then
      (tagText count c.step).map fun r => (c.char :: r.1, r.2)
    else some ([], c)

/-- The text of a tag at a cursor; it has at least one character. -/
def tagText? (c : Cursor) : Option (String × Cursor) := do
  let (text, c) ← tagText (c.rest.length + 1) c
  if text.isEmpty then none else some (String.ofList text, c)

/-- The handle of a tag at a cursor: an exclamation mark, or a name between two of them. -/
def handle? (c : Cursor) : Option (String × Cursor) :=
  if c.char != '!' then none
  else if c.ahead 1 == ' ' then some ("!", c.step)
  else
    let (name, behind) := c.step.span isNameChar
    if behind.char == '!' then
      some (String.ofList ('!' :: name ++ ['!']), behind.step)
    else none

/-- The tag at a cursor. -/
def tag? (c : Cursor) : Option (Token × Cursor) := do
  let next := c.ahead 1
  let (token, c) ←
    if next == '<' then do
      let (suffix, c) ← tagText? (c.advance 2)
      if c.char == '>' then some (Token.tag none suffix, c.step) else none
    else if isGap next then some (Token.tag none "!", c.step)
    else do
      let word := c.step.rest.takeWhile fun ch => !endsPart ch
      let (handle, c) ← if word.contains '!' then handle? c else some ("!", c.step)
      let (suffix, c) ← tagText? c
      return (Token.tag (some handle) suffix, c)
  if endsPart c.char then some (token, c) else none

/-- A cursor behind the rest of a directive's line. -/
def directiveEnd? (c : Cursor) : Option Cursor :=
  let c := (c.skip (· == ' ')).skipComment
  if isEnd c.char then some c else c.lineBreak?.map (·.2)

/-- The version number behind a directive's name, which has to be of the first version. -/
def version? (c : Cursor) : Option Cursor := do
  let (major, c) := (c.skip (· == ' ')).span (·.isDigit)
  let (minor, behind) := c.step.span (·.isDigit)
  if major.dropWhile (· == '0') == ['1'] && c.char == '.' && !minor.isEmpty &&
      endsPart behind.char then some behind
  else none

/-- The directive at a cursor. -/
def directive? (c : Cursor) : Option (Token × Cursor) := do
  let (name, c) ← name? c.step
  if !endsPart c.char then none
  else if name == "YAML" then do
    let c ← directiveEnd? (← version? c)
    return (.directive name "" "", c)
  else if name == "TAG" then do
    let (handle, c) ← handle? (c.skip (· == ' '))
    if c.char != ' ' then none
    else do
      let (tagPrefix, c) ← tagText? (c.skip (· == ' '))
      if endsPart c.char then
        return (.directive name handle tagPrefix, ← directiveEnd? c)
      else none
  else do
    let c ← directiveEnd? (c.skip fun ch => !isBreak ch)
    return (.directive name "" "", c)

end Token

end TypeSuite.Yaml
