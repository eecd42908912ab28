import TypeSuite.Yaml.TokenStream

/-!
# From tokens to nodes

A document is a tree of scalars, sequences and mappings. An alias stands for the node that its
anchor was put on, and a node without a tag of its own is tagged later by its content.
-/

namespace TypeSuite.Yaml

/-- A node of a document. -/
inductive Node where
  /-- A scalar; without a tag, a plain one is tagged by its text. -/
  | scalar (tag : Option String) (text : String) (plain : Bool)
  | sequence (tag : Option String) (items : List Node)
  | mapping (tag : Option String) (entries : List (Node × Node))
deriving Inhabited

/-- The node where nothing is written. -/
def Node.empty : Node := .scalar none "" true

/-- What the reading of nodes carries along. -/
structure Reading where
  tokens : List Token
  /-- The nodes of the anchors so far. -/
  anchors : List (String × Node)
  /-- The handles of tags with what they stand for. -/
  handles : List (String × String)

/-- A reader of something from tokens, which may fail. -/
abbrev Reader (α : Type) := StateT Reading Option α

namespace Reader

/-- The next token. -/
def peek : Reader Token := do
  return (← get).tokens.headD .streamEnd

/-- Takes the next token. -/
def take : Reader Token := do
  let r ← get
  match r.tokens with
  | [] => failure
  | t :: rest =>
    set { r with tokens := rest }
    return t

/-- Takes the next token if it is a given one. -/
def skip (t : Token) : Reader Bool := do
  if (← peek) == t then
    let _ ← take
    return true
  else return false

/-- Takes a given token. -/
def expect (t : Token) : Reader Unit := do
  unless ← skip t do failure

/-- Runs a reader up to `count` times, for as long as it gives something. -/
def repeatUpTo {α : Type} (p : Reader (Option α)) : Nat → Reader (List α)
  | 0 => failure
  | count + 1 => do
    match ← p with
    | some a => return a :: (← repeatUpTo p count)
    | none => return []

/-- Runs a reader for as long as it gives something. Each round takes a token. -/
def collect {α : Type} (p : Reader (Option α)) : Reader (List α) := do
  repeatUpTo p ((← get).tokens.length + 1)

/-- What a node reader may do: take a block, and take entries without indentation. -/
structure Context where
  block : Bool
  entries : Bool

/-- A node, or the empty one in front of given tokens. -/
def orEmpty (node : Reader Node) (stops : List Token) : Reader Node := do
  if stops.contains (← peek) then return .empty else node

/-- The entries of a block sequence. -/
def blockEntries (node : Context → Reader Node) : Reader (List Node) := do
  let items ← collect do
    if ← skip .blockEntry then
      some <$> orEmpty (node ⟨true, false⟩) [.blockEntry, .blockEnd]
    else return none
  expect .blockEnd
  return items

/-- The entries of a sequence that is not indented. -/
def bareEntries (node : Context → Reader Node) : Reader (List Node) :=
  collect do
    if ← skip .blockEntry then
      some <$> orEmpty (node ⟨true, false⟩) [.blockEntry, .key, .value, .blockEnd]
    else return none

/-- The value of an entry, or the empty node. -/
def valueOr (node : Reader Node) (stops : List Token) : Reader Node := do
  if ← skip .value then orEmpty node stops else return .empty

/-- The entries of a block mapping. -/
def blockPairs (node : Context → Reader Node) : Reader (List (Node × Node)) := do
  let stops := [Token.key, .value, .blockEnd]
  let pairs ← collect do
    if ← skip .key then
      let key ← orEmpty (node ⟨true, true⟩) stops
      let value ← valueOr (node ⟨true, true⟩) stops
      return some (key, value)
    else return none
  expect .blockEnd
  return pairs

/-- Items with commas between them and perhaps one at the end, up to a closing bracket. -/
def flowList {α : Type} (close : Token) (item : Reader α) : Reader (List α) := do
  if ← skip close then return []
  let first ← item
  let more ← collect do
    if ← skip close then return none
    expect .flowEntry
    if ← skip close then return none
    some <$> item
  return first :: more

/-- An item of a flow sequence, which may be a mapping of one entry. -/
def flowItem (node : Context → Reader Node) : Reader Node := do
  if ← skip .key then
    let key ← orEmpty (node ⟨false, false⟩) [.value, .flowEntry, .flowSequenceEnd]
    let value ← valueOr (node ⟨false, false⟩) [.flowEntry, .flowSequenceEnd]
    return .mapping none [(key, value)]
  else node ⟨false, false⟩

/-- An entry of a flow mapping. -/
def flowPair (node : Context → Reader Node) : Reader (Node × Node) := do
  if ← skip .key then
    let key ← orEmpty (node ⟨false, false⟩) [.value, .flowEntry, .flowMappingEnd]
    let value ← valueOr (node ⟨false, false⟩) [.flowEntry, .flowMappingEnd]
    return (key, value)
  else return (← node ⟨false, false⟩, .empty)

/-- The anchor in front of a node. -/
def anchor? : Reader (Option String) := do
  match ← peek with
  | .anchor name =>
    let _ ← take
    return some name
  | _ => return none

/-- The tag in front of a node, with its handle replaced. -/
def tag? : Reader (Option String) := do
  match ← peek with
  | .tag handle suffix =>
    let _ ← take
    match handle with
    | none => return some suffix
    | some handle =>
      match (← get).handles.lookup handle with
      | some start => return some (start ++ suffix)
      | none => failure
  | _ => return none

/-- The anchor and the tag in front of a node, in either order. -/
def properties : Reader (Option String × Option String) := do
  match ← anchor? with
  | some name => return (some name, ← tag?)
  | none =>
    let tag ← tag?
    let name ← if tag.isSome then anchor? else pure none
    return (name, tag)

/-- Puts an anchor on a node; a second use of its name is refused. -/
def setAnchor (name : Option String) (n : Node) : Reader Unit := do
  match name with
  | none => return
  | some name =>
    if ((← get).anchors.lookup name).isSome then failure
    modify fun r => { r with anchors := (name, n) :: r.anchors }

/-- Puts an anchor on a finished node in place of its beginning. -/
def resetAnchor (name : Option String) (n : Node) : Reader Unit :=
  match name with
  | none => return
  | some name =>
    modify fun r => { r with anchors := (name, n) :: r.anchors.filter fun e => e.1 != name }

/-- A collection under an anchor. Inside it, the anchor stands for an empty one. -/
def anchored (name : Option String) (beginning : Node) (rest : Reader Node) : Reader Node := do
  let _ ← take
  setAnchor name beginning
  let n ← rest
  resetAnchor name n
  return n

/-- The content of a node behind its anchor and its tag. -/
def content (node : Context → Reader Node) (c : Context) (name tag : Option String) :
    Reader Node := do
  let own := if tag == some "!" then none else tag
  match ← peek with
  | .scalar text plain =>
    let _ ← take
    let n := Node.scalar own text (plain || tag == some "!")
    setAnchor name n
    return n
  | .flowSequenceStart => anchored name (.sequence own []) do
    return .sequence own (← flowList .flowSequenceEnd (flowItem node))
  | .flowMappingStart => anchored name (.mapping own []) do
    return .mapping own (← flowList .flowMappingEnd (flowPair node))
  | .blockSequenceStart =>
    if c.block then anchored name (.sequence own []) do
      return .sequence own (← blockEntries node)
    else empty own
  | .blockMappingStart =>
    if c.block then anchored name (.mapping own []) do
      return .mapping own (← blockPairs node)
    else empty own
  | .blockEntry =>
    if c.entries then
      setAnchor name (.sequence own [])
      let n := Node.sequence own (← bareEntries node)
      resetAnchor name n
      return n
    else empty own
  | _ => empty own
where
  /-- The empty scalar, which needs an anchor or a tag. -/
  empty (own : Option String) : Reader Node := do
    if name.isNone && tag.isNone then failure
    let n := Node.scalar own "" (own.isNone)
    setAnchor name n
    return n

/-- A node over the reader of the nodes in it. -/
def nodeWith (node : Context → Reader Node) (c : Context) : Reader Node := do
  match ← peek with
  | .alias name =>
    let _ ← take
    match (← get).anchors.lookup name with
    | some n => return n
    | none => failure
  | _ =>
    let (name, tag) ← properties
    content node c name tag

/-- A node down to a depth of nodes in nodes. -/
def nodeUpTo : Nat → Context → Reader Node
  | 0, _ => failure
  | depth + 1, c => nodeWith (nodeUpTo depth) c

/-- The handles of tags in a document without directives. -/
def defaultHandles : List (String × String) :=
  [("!", "!"), ("!!", "tag:yaml.org,2002:")]

/-- The directives in front of a document. The version may be given once, and each handle once. -/
def directives : Reader Unit := do
  let found ← collect do
    match ← peek with
    | .directive name handle start =>
      let _ ← take
      return some (name, handle, start)
    | _ => return none
  let handles := (found.filter fun d => d.1 == "TAG").map (·.2)
  if 1 < found.countP fun d => d.1 == "YAML" then failure
  unless (handles.map (·.1)).eraseDups.length == handles.length do failure
  modify fun r => { r with handles := handles ++ defaultHandles }

/-- Moves over marks of a document's end. -/
def skipDocumentEnds : Reader Unit := do
  let _ ← collect do
    if ← skip .documentEnd then return some () else return none

/-- Whether the tokens go on with the start of a marked document. -/
def atMarkedDocument : Reader Bool := do
  match ← peek with
  | .directive .. | .documentStart | .streamEnd => return true
  | _ => return false

/-- The single document of the tokens; `none` when there is not even one. -/
def document (depth : Nat) : Reader (Option Node) := do
  let node := nodeUpTo depth ⟨true, false⟩
  if ← atMarkedDocument then
    if (← peek) == .streamEnd then return none
    directives
    expect .documentStart
    let bare ← atMarkedDocument
    let n ← if bare || (← peek) == .documentEnd then pure Node.empty else node
    close n
  else close (← node)
where
  /-- The end of the document, behind which no other one may come. -/
  close (n : Node) : Reader (Option Node) := do
    skipDocumentEnds
    expect .streamEnd
    return some n

end Reader

/-- The root of a document. A document without a root is none at all. -/
def root? (text : String) : Option (Option Node) := do
  let tokens ← tokens? text
  let (root, _) ← (Reader.document (tokens.length + 1)).run ⟨tokens, [], Reader.defaultHandles⟩
  return root

end TypeSuite.Yaml
