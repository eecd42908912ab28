import TypeSuite.Node.Basic
import TypeSuite.Text.Slice
import TypeSuite.Tree.Basic

/-!
# From trees to nodes

A tree is read bottom up. What it means depends on the position it stands in, so a reading gathers
its meaning in every position, and the reading of a tree is made from those of its children.
Comments have no meaning anywhere, and syntax without a meaning becomes an unknown node.
-/

namespace TypeSuite

/-- Why a tree has no meaning in a position. -/
inductive LoweringFault where
  /-- The bytes of a tree are no text. -/
  | undecodable
  /-- A child is absent that its parent cannot do without. -/
  | absent
  /-- A bracketed or array type has nothing inside. -/
  | hollow
deriving DecidableEq, Repr

/-- The result of giving a tree a meaning. -/
abbrev Lowered (α : Type) := Except LoweringFault α

/-- What a tree means in each position that it can stand in. -/
structure Reading where
  /-- As a statement. -/
  statement : Lowered Node
  /-- As an entry of an extends clause. -/
  base : Lowered Node
  /-- As an extends clause. -/
  bases : Lowered (List Node)
  /-- As a member. -/
  member : Lowered Node
  /-- As the body of an interface. -/
  members : Lowered (List Node)
  /-- As a parameter. -/
  parameter : Lowered Node
  /-- As a parameter list. -/
  parameters : Lowered (List Node)
  /-- As the annotation of a member, a parameter or a result. -/
  annotated : Lowered Node
  /-- As a type. -/
  type : Lowered Node
  /-- As a list of type arguments. -/
  types : Lowered (List Node)
  /-- As an operand of a union: the operands that it brings in. -/
  operands : List (Lowered Node)
  /-- The first child with a meaning. -/
  firstItem : Option Head

/-- A child in the making of its parent's reading. -/
structure Child where
  head : Head
  reading : Reading

namespace Child

/-- The children that carry meaning. -/
def items (children : List Child) : List Child :=
  children.filter (·.head.isItem)

/-- The first child that fills a field. -/
def inField? (field : String) (children : List Child) : Option Child :=
  children.find? (·.head.field == some field)

/-- Whether a token of fixed spelling is among the children. -/
def hasToken (token : String) (children : List Child) : Bool :=
  children.any fun c => !c.head.named && c.head.kind == token

end Child

namespace Lowering

open Child

/-- The text of a tree. -/
def textOf (source : ByteArray) (head : Head) : Lowered String :=
  match Text.slice? source head.start head.stop with
  | some text => .ok text
  | none => .error .undecodable

/-- A node for syntax without a meaning. -/
def unknown (source : ByteArray) (head : Head) : Lowered Node := do
  return .unknown head.kind (← textOf source head)

/-- The child that a parent cannot do without. -/
def required (child : Option Child) : Lowered Child :=
  match child with
  | some c => .ok c
  | none => .error .absent

/-- The name of a declaration, a member or a parameter. -/
def nameOf (source : ByteArray) : Option Head → Lowered Node
  | none => .ok (.unknown "missing_name" "")
  | some head => do
    let text ← textOf source head
    match head.kind with
    | "identifier" | "property_identifier" | "type_identifier" | "private_property_identifier"
    | "shorthand_property_identifier" => return .identifier text
    | "string" => return .stringLiteral text
    | "number" => return .numericLiteral text
    | "computed_property_name" => return .computedName text
    | form => return .unknown form text

/-- The name of a parameter. A rest parameter goes by its inner name. -/
def parameterNameOf (source : ByteArray) (pattern : Option Child) : Lowered Node :=
  let head := pattern.bind fun c =>
    if c.head.kind == "rest_pattern" then c.reading.firstItem else some c.head
  match head with
  | none => nameOf source none
  | some h => if h.kind == "this" then .ok (.identifier "this") else nameOf source (some h)

/-- The annotation in a field, if the field is filled. -/
def annotatedIn (field : String) (children : List Child) : Lowered (Option Node) :=
  match inField? field children with
  | none => .ok none
  | some c => some <$> c.reading.annotated

/-- The parameters of a function or a method; an unfilled field has none. -/
def parametersIn (children : List Child) : Lowered (List Node) :=
  match inField? "parameters" children with
  | none => .ok []
  | some c => c.reading.parameters

/-- The type arguments of a reference; an unfilled field has none. -/
def argumentsIn (children : List Child) : Lowered (List Node) :=
  match inField? "type_arguments" children with
  | none => .ok []
  | some c => c.reading.types

/-- The kinds of an interface body that need not fill a field. -/
def isBody (kind : String) : Bool :=
  kind == "object_type" || kind == "interface_body"

/-- The kinds of an extends clause. -/
def isExtendsClause (kind : String) : Bool :=
  kind == "extends_type_clause" || kind == "extends_clause"

/-- The body of an interface. -/
def body? (children : List Child) : Option Child :=
  (inField? "body" children).or ((items children).find? (isBody ·.head.kind))

/-- An interface declaration. -/
def interfaceOf (source : ByteArray) (head : Head) (children : List Child) : Lowered Node := do
  let clauses := (items children).filter (isExtendsClause ·.head.kind)
  let heritage ← clauses.mapM (·.reading.bases)
  let name ← nameOf source ((inField? "name" children).map (·.head))
  let members ← match body? children with
    | some c => c.reading.members
    | none => pure []
  return .interface name heritage.flatten members (← textOf source head)

/-- A type alias. -/
def aliasOf (source : ByteArray) (head : Head) (children : List Child) : Lowered Node := do
  let name ← nameOf source ((inField? "name" children).map (·.head))
  let type ← (← required (inField? "value" children)).reading.type
  return .alias name type (← textOf source head)

/-- A statement. Exports and ambient declarations stand for the declaration inside. -/
def statementOf (source : ByteArray) (head : Head) (children : List Child) : Lowered Node :=
  match head.kind with
  | "export_statement" =>
    match inField? "declaration" children with
    | some c => c.reading.statement
    | none => unknown source head
  | "ambient_declaration" =>
    match items children with
    | [c] => c.reading.statement
    | _ => unknown source head
  | "interface_declaration" => interfaceOf source head children
  | "type_alias_declaration" => aliasOf source head children
  | _ => unknown source head

/-- An entry of an extends clause. -/
def baseOf (source : ByteArray) (head : Head) (children : List Child) : Lowered Node := do
  if head.kind == "generic_type" then
    let base ← textOf source (← required (inField? "name" children)).head
    let arguments ← argumentsIn children
    return .heritage (.identifier base) arguments (← textOf source head)
  else
    let text ← textOf source head
    return .heritage (.identifier text) [] text

/-- A member of an interface. -/
def memberOf (source : ByteArray) (head : Head) (children : List Child) : Lowered Node := do
  match head.kind with
  | "property_signature" =>
    let name ← nameOf source ((inField? "name" children).map (·.head))
    let type ← annotatedIn "type" children
    return .property name type (hasToken "?" children) (← textOf source head)
  | "method_signature" =>
    let name ← nameOf source ((inField? "name" children).map (·.head))
    let parameters ← parametersIn children
    let type ← annotatedIn "return_type" children
    return .method name parameters type (← textOf source head)
  | _ => unknown source head

/-- A parameter. -/
def parameterOf (source : ByteArray) (head : Head) (children : List Child) : Lowered Node := do
  if head.kind == "required_parameter" || head.kind == "optional_parameter" then
    let name ← parameterNameOf source (inField? "pattern" children)
    let type ← annotatedIn "type" children
    return .parameter name type (head.kind == "optional_parameter") (← textOf source head)
  else unknown source head

/-- The type in an annotation. -/
def annotatedOf (source : ByteArray) (head : Head) (children : List Child) : Lowered Node :=
  if head.kind == "type_annotation" then
    match items children with
    | c :: _ => c.reading.type
    | [] => unknown source head
  else unknown source head

/-- The type of the first child with a meaning. -/
def firstType (children : List Child) : Lowered Node :=
  match items children with
  | c :: _ => c.reading.type
  | [] => .error .hollow

/-- The operands of a union, those of inner unions included. -/
def unionOperands (children : List Child) : List (Lowered Node) :=
  (items children).flatMap (·.reading.operands)

/-- A keyword type, or the given node when the text is no keyword. -/
def keywordOr (text : String) (other : Node) : Node :=
  match Keyword.ofName? text with
  | some k => .keyword k text
  | none => other

/-- A type. -/
def typeOf (source : ByteArray) (head : Head) (children : List Child) : Lowered Node := do
  let text ← textOf source head
  match head.kind with
  | "type_identifier" | "nested_type_identifier" | "identifier" =>
    return .reference (.identifier text) [] text
  | "generic_type" =>
    let name ← textOf source (← required (inField? "name" children)).head
    return .reference (.identifier name) (← argumentsIn children) text
  | "predefined_type" => return keywordOr text (.unknown head.kind text)
  | "this_type" => return .keyword .this text
  | "literal_type" => return keywordOr text (.literal text)
  | "parenthesized_type" => return .parenthesized (← firstType children) text
  | "array_type" => return .array (← firstType children) text
  | "tuple_type" => return .tuple (← (items children).mapM (·.reading.type)) text
  | "union_type" => return .union (← (unionOperands children).mapM id) text
  | "object_type" => return .typeLiteral (← (items children).mapM (·.reading.member)) text
  | "function_type" =>
    let parameters ← parametersIn children
    let type ← match inField? "return_type" children with
      | some c => some <$> c.reading.type
      | none => pure none
    return .function parameters type text
  | form => return .unknown form text

/-- The reading of a tree from its root and the readings of its children. -/
def readingOf (source : ByteArray) (head : Head) (children : List Child) : Reading :=
  let type := typeOf source head children
  { statement := statementOf source head children
    base := baseOf source head children
    bases := (items children).mapM (·.reading.base)
    member := memberOf source head children
    members := (items children).mapM (·.reading.member)
    parameter := parameterOf source head children
    parameters := (items children).mapM (·.reading.parameter)
    annotated := annotatedOf source head children
    type
    types := (items children).mapM (·.reading.type)
    operands := if head.kind == "union_type" then unionOperands children else [type]
    firstItem := ((items children).head?).map (·.head) }

mutual
/-- The reading of a tree. -/
def read (source : ByteArray) : Tree → Reading
  | .node head children => readingOf source head (readAll source children)

/-- The children of a tree with their readings. -/
def readAll (source : ByteArray) : List Tree → List Child
  | [] => []
  | tree :: rest => ⟨tree.head, read source tree⟩ :: readAll source rest
end

end Lowering

/-- The source file that an error-free tree stands for. -/
def Tree.lower (source : ByteArray) (fileName : String) (root : Tree) :
    Lowered SourceFile := do
  let children := Lowering.readAll source root.children
  let statements ← (Child.items children).mapM (·.reading.statement)
  return ⟨fileName, statements, ← Lowering.textOf source root.head⟩

end TypeSuite
