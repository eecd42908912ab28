import TypeSuite.Source.Token
import TypeSuite.Tree.Basic

/-!
# Parsers

A parser takes tokens from the front of the rest of a source and may fail. Where an alternative
fails, the next one starts over from the same place.
-/

namespace TypeSuite.Source

/-- The tokens that are left, and where the last taken one ended. -/
structure Cursor where
  rest : List Token
  last : Nat

/-- A parser of something. -/
abbrev Parser (α : Type) := StateT Cursor Option α

namespace Parser

/-- The next token. -/
def peek : Parser Token := fun c => some (c.rest.headD (finish c.last c.last), c)

/-- The token after the next one. -/
def peekSecond : Parser Token := fun c =>
  some ((c.rest.drop 1).headD (finish c.last c.last), c)

/-- Takes the next token. The end of the source cannot be taken. -/
def take : Parser Token := fun c =>
  match c.rest with
  | t :: rest => if t.sort = .finish then none else some (t, { rest, last := t.stop })
  | [] => none

/-- Where the last taken token ended. -/
def last : Parser Nat := fun c => some (c.last, c)

/-- Runs a parser for its tokens alone, with a value of its own. -/
def giving {α β : Type} (a : α) (p : Parser β) : Parser α := do
  let _ ← p
  return a

/-- Whether a parser would succeed here. -/
def canRead {α : Type} (p : Parser α) : Parser Bool := fun c =>
  some ((p c).isSome, c)

/-- Whether the next token is a given mark. -/
def atMark (text : String) : Parser Bool := do
  let t ← peek
  return t.sort == .mark && t.text == text

/-- Whether the next token is a given word. -/
def atWord (text : String) : Parser Bool := do
  let t ← peek
  return t.sort == .word && t.text == text

/-- Takes a token that a condition holds of. -/
def takeIf (p : Token → Bool) : Parser Token := do
  let t ← take
  if p t then return t else failure

/-- Takes a given mark. -/
def mark (text : String) : Parser Token :=
  takeIf fun t => t.sort == .mark && t.text == text

/-- Takes a given word. -/
def word (text : String) : Parser Token :=
  takeIf fun t => t.sort == .word && t.text == text

/-- Takes a token of a given sort. -/
def sort (s : TokenSort) : Parser Token :=
  takeIf (·.sort == s)

/-- Takes a given mark if it is next. -/
def skipMark (text : String) : Parser Bool :=
  return (← optional (mark text)).isSome

/-- Takes a given word if it is next. -/
def skipWord (text : String) : Parser Bool :=
  return (← optional (word text)).isSome

/-- Runs a parser up to `count` times, for as long as it gives something. -/
def repeatUpTo {α : Type} (p : Parser (Option α)) : Nat → Parser (List α)
  | 0 => return []
  | count + 1 => do
    match ← p with
    | some a => return a :: (← repeatUpTo p count)
    | none => return []

/-- Runs a parser for as long as it gives something. Each round takes a token, so the number of
tokens that are left bounds the rounds. -/
def collect {α : Type} (p : Parser (Option α)) : Parser (List α) := do
  let c ← get
  repeatUpTo p (c.rest.length + 1)

/-- One or more items with commas between them. -/
def commaSeparated {α : Type} (item : Parser α) : Parser (List α) := do
  let first ← item
  let more ← collect do
    if ← skipMark "," then some <$> item else return none
  return first :: more

/-- Items with commas between them and perhaps one at the end, up to a closing mark, which is
taken as well. -/
def listUntil {α : Type} (close : String) (item : Parser α) : Parser (List α) := do
  let items ← collect do
    if ← atMark close then return none
    let a ← item
    unless ← atMark close do
      let _ ← mark ","
    return some a
  let _ ← mark close
  return items

end Parser

/-! ## Trees -/

/-- A tree over the given bytes. -/
def treeAt (kind : String) (first : Token) (stop : Nat) (children : List Tree) : Tree :=
  .node ⟨kind, first.start, stop, first.row, first.column, none, true, false, false⟩ children

/-- A tree over one token. -/
def leaf (kind : String) (t : Token) : Tree :=
  treeAt kind t t.stop []

/-- A token of fixed spelling as a tree. -/
def fixed (t : Token) : Tree :=
  .node ⟨t.text, t.start, t.stop, t.row, t.column, none, false, false, false⟩ []

/-- A tree in a field of its parent. -/
def inField (field : String) : Tree → Tree
  | .node head children => .node { head with field := some field } children

/-- A tree as another kind. -/
def asKind (kind : String) : Tree → Tree
  | .node head children => .node { head with kind } children

namespace Parser

/-- A tree from a token to the last one taken. -/
def close (kind : String) (first : Token) (children : List Tree) : Parser Tree :=
  return treeAt kind first (← last) children

/-! ## Automatic semicolons -/

/-- Whether a word begins with the given characters and goes on with no letter. -/
def isBareWord (text : String) (bare : String) : Bool :=
  bare.toList.isPrefixOf text.toList &&
    match text.toList.drop bare.length with
    | c :: _ => !(c.isAlpha || 0x7f < c.toNat)
    | [] => true

/-- Whether a token may begin a line that does not continue the one before. Inside an expression
an opening bracket continues it. -/
def beginsLine (inExpression : Bool) (t : Token) : Bool :=
  match t.sort with
  | .mark =>
    match t.text with
    | "(" | "[" => !inExpression
    | "++" | "--" | "!" | "~" | "\x7b" | "\x7d" | "@" | ")" | "]" => true
    | _ => false
  | .template | .pattern => false
  | .number => !(t.text.toList.head? == some '.')
  | .word => !(isBareWord t.text "in" || isBareWord t.text "instanceof")
  | _ => true

/-- The place of an automatic semicolon in front of the next token, if there may be one. -/
def breakHere (inExpression : Bool) : Parser (Option Nat) := do
  let t ← peek
  return if beginsLine inExpression t then t.breakAt else none

/-- Ends a statement by a semicolon or by a place for an automatic one. -/
def endStatement (inExpression : Bool) : Parser Unit := do
  if ← skipMark ";" then return
  match ← breakHere inExpression with
  | some stop => modify fun c => { c with last := stop }
  | none => failure

/-- Whether the next token stands on the line of the last one, as far as a statement may end in
front of it. -/
def onSameLine : Parser Bool := do
  return (← breakHere false).isNone

end Parser

/-! ## Grammars -/

/-- The parts of the grammar that contain each other. -/
inductive Rule where
  | type
  | unionType
  | operandType
  | bodyType
  | parameters
  | typeParameters
  | typeArguments
  | pattern
  | expression
  | operand
  | block
  | classBody
  | statement
deriving DecidableEq, Repr

/-- A parser for each part of the grammar. -/
abbrev Grammar := Rule → Parser Tree

end TypeSuite.Source
