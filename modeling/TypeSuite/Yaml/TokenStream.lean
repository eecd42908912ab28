import TypeSuite.Yaml.Token

/-!
# From characters to tokens

A token stream keeps what decides on the tokens to come: the open blocks by their indentation, the
depth of open brackets, and at each depth the token that may turn out to be a key.
-/

namespace TypeSuite.Yaml

/-- A token that may turn out to be a key. -/
structure PossibleKey where
  /-- The number of tokens in front of it. -/
  position : Nat
  /-- Whether it has to be a key, because a block's entry begins with it. -/
  required : Bool
  index : Nat
  line : Nat
  column : Nat

/-- The longest key that needs no mark of its own. -/
def maxKeyLength : Nat := 1024

/-- The tokens so far and what decides on those to come. The open blocks have their indentations
plus one, the innermost first; zero stands for no block. -/
structure TokenStream where
  cursor : Cursor
  tokens : Array Token
  /-- The number of open brackets. -/
  flow : Nat
  blocks : List Nat
  /-- Whether a key may begin here. -/
  keyAllowed : Bool
  /-- The possible keys, each with the depth that it belongs to. -/
  keys : List (Nat × PossibleKey)

namespace TokenStream

/-- The stream at the start of a document. -/
def start (text : String) : TokenStream :=
  ⟨Cursor.start text, #[], 0, [], true, []⟩

/-- The indentation plus one of the innermost block. -/
def indent (s : TokenStream) : Nat :=
  s.blocks.headD 0

/-- Adds a token. -/
def push (s : TokenStream) (t : Token) : TokenStream :=
  { s with tokens := s.tokens.push t }

/-- Moves over spaces, comments and line ends. -/
def skipGaps : Nat → TokenStream → TokenStream
  | 0, s => s
  | count + 1, s =>
    let c := (s.cursor.skip (· == ' ')).skipComment
    match c.lineBreak? with
    | none => { s with cursor := c }
    | some (_, c) =>
      skipGaps count { s with cursor := c, keyAllowed := s.keyAllowed || s.flow == 0 }

/-- Moves to the next token. -/
def toNextToken (s : TokenStream) : TokenStream :=
  let c := s.cursor
  let c := if c.index == 0 && c.char == byteOrderMark then c.step else c
  skipGaps (c.rest.length + 1) { s with cursor := c }

/-- Forgets the possible keys that are too far back. -/
def dropStaleKeys (s : TokenStream) : Option TokenStream :=
  let stale (k : PossibleKey) : Bool :=
    k.line != s.cursor.line || maxKeyLength < s.cursor.index - k.index
  if s.keys.any fun e => stale e.2 && e.2.required then none
  else some { s with keys := s.keys.filter fun e => !stale e.2 }

/-- Forgets the possible key at the present depth. -/
def forgetKey (s : TokenStream) : Option TokenStream :=
  match s.keys.lookup s.flow with
  | none => some s
  | some k =>
    if k.required then none else some { s with keys := s.keys.filter fun e => e.1 != s.flow }

/-- Remembers that the token to come may be a key. -/
def noteKey (s : TokenStream) : Option TokenStream :=
  if s.keyAllowed then do
    let s ← s.forgetKey
    let c := s.cursor
    let required := s.flow == 0 && s.indent == c.column + 1
    let k : PossibleKey := ⟨s.tokens.size, required, c.index, c.line, c.column⟩
    return { s with keys := (s.flow, k) :: s.keys }
  else some s

/-- Closes the blocks that are indented further than a column. -/
def closeBlocks (column : Nat) (s : TokenStream) : TokenStream :=
  if s.flow == 0 then
    let closed := s.blocks.takeWhile fun b => column < b
    { s with
      tokens := s.tokens ++ (List.replicate closed.length Token.blockEnd).toArray
      blocks := s.blocks.drop closed.length }
  else s

/-- Opens a block at a column, if that is further in than the innermost one, by a token at a
position. -/
def openBlock (s : TokenStream) (column position : Nat) (t : Token) : TokenStream :=
  if s.indent < column + 1 then
    { s with
      blocks := (column + 1) :: s.blocks
      tokens := s.tokens.insertIdxIfInBounds position t }
  else s

/-- Opens a block at the cursor. -/
def openBlockHere (s : TokenStream) (t : Token) : TokenStream :=
  s.openBlock s.cursor.column s.tokens.size t

/-- Adds the token of a mark of some characters. -/
def mark (s : TokenStream) (length : Nat) (t : Token) : TokenStream :=
  { s.push t with cursor := s.cursor.advance length }

/-- The end of the document's text. -/
def takeEnd (s : TokenStream) : Option TokenStream := do
  let s ← (s.closeBlocks 0).forgetKey
  return s.push .streamEnd

/-- A directive. -/
def takeDirective (s : TokenStream) : Option TokenStream := do
  let s ← (s.closeBlocks 0).forgetKey
  let (t, c) ← Token.directive? s.cursor
  return { s.push t with cursor := c, keyAllowed := false }

/-- The mark of a document's start or end. -/
def takeDocumentMark (s : TokenStream) (t : Token) : Option TokenStream := do
  let s ← (s.closeBlocks 0).forgetKey
  return { s.mark 3 t with keyAllowed := false }

/-- An opening bracket. -/
def takeOpening (s : TokenStream) (t : Token) : Option TokenStream := do
  let s ← s.noteKey
  return { s.mark 1 t with flow := s.flow + 1, keyAllowed := true }

/-- A closing bracket. -/
def takeClosing (s : TokenStream) (t : Token) : Option TokenStream := do
  let s ← s.forgetKey
  return { s.mark 1 t with flow := s.flow - 1, keyAllowed := false }

/-- A comma between brackets. -/
def takeFlowEntry (s : TokenStream) : Option TokenStream := do
  let s ← s.forgetKey
  return { s.mark 1 .flowEntry with keyAllowed := true }

/-- The dash of an entry. -/
def takeBlockEntry (s : TokenStream) : Option TokenStream := do
  if s.flow == 0 && !s.keyAllowed then none
  else
    let s := if s.flow == 0 then s.openBlockHere .blockSequenceStart else s
    let s ← s.forgetKey
    return { s.mark 1 .blockEntry with keyAllowed := true }

/-- The question mark of a key. -/
def takeKey (s : TokenStream) : Option TokenStream := do
  if s.flow == 0 && !s.keyAllowed then none
  else
    let s := if s.flow == 0 then s.openBlockHere .blockMappingStart else s
    let s ← s.forgetKey
    return { s.mark 1 .key with keyAllowed := s.flow == 0 }

/-- The colon of a value. The possible key in front of it becomes one. -/
def takeValue (s : TokenStream) : Option TokenStream := do
  match s.keys.lookup s.flow with
  | some k =>
    let s := { s with
      keys := s.keys.filter fun e => e.1 != s.flow
      tokens := s.tokens.insertIdxIfInBounds k.position .key }
    let s := if s.flow == 0 then s.openBlock k.column k.position .blockMappingStart else s
    return { s.mark 1 .value with keyAllowed := false }
  | none =>
    if s.flow == 0 && !s.keyAllowed then none
    else
      let s := if s.flow == 0 then s.openBlockHere .blockMappingStart else s
      return { s.mark 1 .value with keyAllowed := s.flow == 0 }

/-- A token that may be a key, from what is at the cursor. -/
def takeNode (s : TokenStream) (read : Cursor → Option (Token × Cursor)) :
    Option TokenStream := do
  let s ← s.noteKey
  let (t, c) ← read s.cursor
  return { s.push t with cursor := c, keyAllowed := false }

/-- A plain scalar. -/
def takePlain (s : TokenStream) : Option TokenStream := do
  let s ← s.noteKey
  let (text, c, ended) := plainScalar (s.flow != 0) s.indent s.cursor
  return { s.push (.scalar text true) with cursor := c, keyAllowed := ended }

/-- A block scalar. -/
def takeBlock (s : TokenStream) (folded : Bool) : Option TokenStream := do
  let s ← s.forgetKey
  let (text, c) ← blockScalar folded s.indent s.cursor
  return { s.push (.scalar text false) with cursor := c, keyAllowed := true }

/-- Whether a plain scalar may begin at a cursor. -/
def startsPlain (flow : Bool) (c : Cursor) : Bool :=
  let ch := c.char
  if isGap ch || ",[]\x7b\x7d#&*!|>'\"%@\x60".toList.contains ch then false
  else if ch == '-' then !isGap (c.ahead 1)
  else if ch == '?' || ch == ':' then !flow && !isGap (c.ahead 1)
  else true

/-- Reads the next token. -/
def next? (s : TokenStream) : Option TokenStream := do
  let s ← s.toNextToken.dropStaleKeys
  let c := s.cursor
  let s := s.closeBlocks (c.column + 1)
  let inFlow := s.flow != 0
  let alone := isGap (c.ahead 1)
  match c.char with
  | '\x00' => s.takeEnd
  | '[' => s.takeOpening .flowSequenceStart
  | '\x7b' => s.takeOpening .flowMappingStart
  | ']' => s.takeClosing .flowSequenceEnd
  | '\x7d' => s.takeClosing .flowMappingEnd
  | ',' => s.takeFlowEntry
  | '*' => s.takeNode fun c => (Token.anchorName? c.step).map fun r => (.alias r.1, r.2)
  | '&' => s.takeNode fun c => (Token.anchorName? c.step).map fun r => (.anchor r.1, r.2)
  | '!' => s.takeNode Token.tag?
  | '\'' | '\x22' => s.takeNode fun c => (quotedScalar c).map fun r => (.scalar r.1 false, r.2)
  | ch =>
    if ch == '%' && c.column == 0 then s.takeDirective
    else if c.column == 0 && c.atMark "---" then s.takeDocumentMark .documentStart
    else if c.column == 0 && c.atMark "..." then s.takeDocumentMark .documentEnd
    else if ch == '-' && alone then s.takeBlockEntry
    else if ch == '?' && (inFlow || alone) then s.takeKey
    else if ch == ':' && (inFlow || alone) then s.takeValue
    else if ch == '|' && !inFlow then s.takeBlock false
    else if ch == '>' && !inFlow then s.takeBlock true
    else if startsPlain inFlow c then s.takePlain
    else none

/-- Reads tokens up to the end, at most `count` of them. -/
def run : Nat → TokenStream → Option TokenStream
  | 0, _ => none
  | count + 1, s => do
    let s ← s.next?
    if s.tokens.back? == some .streamEnd then some s else run count s

end TokenStream

/-- The tokens of a document. Every round takes at least one character. -/
def tokens? (text : String) : Option (List Token) :=
  if text.toList.all isAllowed then
    (TokenStream.run (text.length + 2) (.start text)).map (·.tokens.toList)
  else none

end TypeSuite.Yaml
