/-!
# Concrete syntax trees

A tree records which bytes of its source it covers and how it stands in its parent. Trees come
from a reader of source text; nothing here depends on which one.
-/

namespace TypeSuite

/-- What a tree says about its root, apart from the children. -/
structure Head where
  /-- The kind of syntax. -/
  kind : String
  /-- The first covered byte. -/
  start : Nat
  /-- The byte after the last covered one. -/
  stop : Nat
  /-- The line of the first byte, from zero. -/
  row : Nat
  /-- The column of the first byte, from zero. -/
  column : Nat
  /-- The field of the parent that the tree fills. -/
  field : Option String
  /-- Whether the tree is more than a token of fixed spelling. -/
  named : Bool
  /-- Whether the tree stands for a token that the source lacks. -/
  missing : Bool
  /-- Whether a syntax error lies in the tree. -/
  hasError : Bool
deriving DecidableEq, Repr, Inhabited

/-- A concrete syntax tree. -/
inductive Tree where
  | node (head : Head) (children : List Tree)
deriving Inhabited

namespace Tree

/-- The root of a tree. -/
def head : Tree → Head
  | .node head _ => head

/-- The children of a tree in source order. -/
def children : Tree → List Tree
  | .node _ children => children

end Tree

/-- Whether a child carries meaning: it is named and no comment. -/
def Head.isItem (head : Head) : Bool :=
  head.named && head.kind != "comment"

end TypeSuite
