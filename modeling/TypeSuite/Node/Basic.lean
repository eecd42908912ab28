import TypeSuite.Node.Kind

/-!
# Source nodes

A source node is a piece of a declaration file together with the text it was written as. Nodes of
every kind may stand in every field: which combinations make sense is for the compiler to say.
-/

namespace TypeSuite

/-- A node of a declaration file. The last field of each kind is its text. -/
inductive Node where
  | identifier (text : String)
  | stringLiteral (text : String)
  | numericLiteral (text : String)
  | computedName (text : String)
  | parameter (name : Node) (type : Option Node) (optional : Bool) (text : String)
  | property (name : Node) (type : Option Node) (optional : Bool) (text : String)
  | method (name : Node) (parameters : List Node) (type : Option Node) (text : String)
  | reference (name : Node) (arguments : List Node) (text : String)
  | function (parameters : List Node) (type : Option Node) (text : String)
  | typeLiteral (members : List Node) (text : String)
  | array (element : Node) (text : String)
  | tuple (elements : List Node) (text : String)
  | union (types : List Node) (text : String)
  | literal (text : String)
  | interface (name : Node) (heritage members : List Node) (text : String)
  | alias (name type : Node) (text : String)
  | heritage (expression : Node) (arguments : List Node) (text : String)
  | parenthesized (type : Node) (text : String)
  | keyword (keyword : Keyword) (text : String)
  | sourceFile (fileName : String) (statements : List Node) (text : String)
  | unknown (form : String) (text : String)
deriving Inhabited

namespace Node

/-- The kind of a node. -/
def kind : Node → Kind
  | .identifier _ => .identifier
  | .stringLiteral _ => .stringLiteral
  | .numericLiteral _ => .numericLiteral
  | .computedName _ => .computedName
  | .parameter .. => .parameter
  | .property .. => .property
  | .method .. => .method
  | .reference .. => .reference
  | .function .. => .function
  | .typeLiteral .. => .typeLiteral
  | .array .. => .array
  | .tuple .. => .tuple
  | .union .. => .union
  | .literal _ => .literal
  | .interface .. => .interface
  | .alias .. => .alias
  | .heritage .. => .heritage
  | .parenthesized .. => .parenthesized
  | .keyword k _ => .keyword k
  | .sourceFile .. => .sourceFile
  | .unknown .. => .unknown

/-- The text of a node. -/
def text : Node → String
  | .identifier text => text
  | .stringLiteral text => text
  | .numericLiteral text => text
  | .computedName text => text
  | .parameter _ _ _ text => text
  | .property _ _ _ text => text
  | .method _ _ _ text => text
  | .reference _ _ text => text
  | .function _ _ text => text
  | .typeLiteral _ text => text
  | .array _ text => text
  | .tuple _ text => text
  | .union _ text => text
  | .literal text => text
  | .interface _ _ _ text => text
  | .alias _ _ text => text
  | .heritage _ _ text => text
  | .parenthesized _ text => text
  | .keyword _ text => text
  | .sourceFile _ _ text => text
  | .unknown _ text => text

/-- The name of a node's syntax in reports; unknown syntax goes by the name its reader gave. -/
def kindName : Node → String
  | .unknown form _ => form
  | node => node.kind.name

/-- The keyword node of a spelling. -/
def ofKeywordName? (name : String) (text : Option String) : Option Node :=
  (Keyword.ofName? name).map fun k => .keyword k (text.getD name)

end Node

/-- A whole declaration file. -/
structure SourceFile where
  fileName : String
  statements : List Node
  text : String
deriving Inhabited

/-- A declaration file as a node. -/
def SourceFile.toNode (f : SourceFile) : Node :=
  .sourceFile f.fileName f.statements f.text

/-- Why a kind's name gives no keyword node. -/
inductive KeywordError where
  | unknownKind
  | notKeyword (kind : Kind)
deriving DecidableEq, Repr

/-- The report of a kind that is not a keyword. -/
def KeywordError.message : KeywordError → Option String
  | .unknownKind => none
  | .notKeyword kind => some ("NodeKind." ++ kind.constant ++ " is not a keyword kind")

/-- The keyword of a kind's name. -/
def Keyword.ofKindName (name : String) : Except KeywordError Keyword :=
  match Kind.ofName? name with
  | none => .error .unknownKind
  | some (.keyword k) => .ok k
  | some kind => .error (.notKeyword kind)

end TypeSuite
