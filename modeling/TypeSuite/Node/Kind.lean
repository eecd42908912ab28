/-!
# Kinds of source nodes

The closed set of declaration syntax that the compiler knows, and the primitive keywords in it.
-/

namespace TypeSuite

/-- A primitive type that is written as a keyword. -/
inductive Keyword where
  | any | number | object | boolean | string | symbol | this | void | undefined | null | never
deriving DecidableEq, Repr, Inhabited

namespace Keyword

/-- The keywords in their fixed order. -/
def all : List Keyword :=
  [.any, .number, .object, .boolean, .string, .symbol, .this, .void, .undefined, .null, .never]

/-- The spelling of a keyword. -/
def name : Keyword → String
  | .any => "any"
  | .number => "number"
  | .object => "object"
  | .boolean => "boolean"
  | .string => "string"
  | .symbol => "symbol"
  | .this => "this"
  | .void => "void"
  | .undefined => "undefined"
  | .null => "null"
  | .never => "never"

/-- The keyword of a spelling. -/
def ofName? (text : String) : Option Keyword :=
  all.find? (·.name == text)

/-- The name of the kind of a keyword's node. -/
def kindName : Keyword → String
  | .any => "AnyKeyword"
  | .number => "NumberKeyword"
  | .object => "ObjectKeyword"
  | .boolean => "BooleanKeyword"
  | .string => "StringKeyword"
  | .symbol => "SymbolKeyword"
  | .this => "ThisKeyword"
  | .void => "VoidKeyword"
  | .undefined => "UndefinedKeyword"
  | .null => "NullKeyword"
  | .never => "NeverKeyword"

end Keyword

/-- The kind of a source node. -/
inductive Kind where
  | identifier | stringLiteral | numericLiteral | computedName | parameter | property | method
  | reference | function | typeLiteral | array | tuple | union | literal | interface | alias
  | heritage | parenthesized
  | keyword (keyword : Keyword)
  | sourceFile | unknown
deriving DecidableEq, Repr, Inhabited

namespace Kind

/-- The kinds in their fixed order. -/
def all : List Kind :=
  [.identifier, .stringLiteral, .numericLiteral, .computedName, .parameter, .property, .method,
   .reference, .function, .typeLiteral, .array, .tuple, .union, .literal, .interface, .alias,
   .heritage, .parenthesized] ++ Keyword.all.map .keyword ++ [.sourceFile, .unknown]

/-- The name of a kind in reports. -/
def name : Kind → String
  | .identifier => "Identifier"
  | .stringLiteral => "StringLiteral"
  | .numericLiteral => "NumericLiteral"
  | .computedName => "ComputedPropertyName"
  | .parameter => "Parameter"
  | .property => "PropertySignature"
  | .method => "MethodSignature"
  | .reference => "TypeReference"
  | .function => "FunctionType"
  | .typeLiteral => "TypeLiteral"
  | .array => "ArrayType"
  | .tuple => "TupleType"
  | .union => "UnionType"
  | .literal => "LiteralType"
  | .interface => "InterfaceDeclaration"
  | .alias => "TypeAliasDeclaration"
  | .heritage => "ExpressionWithTypeArguments"
  | .parenthesized => "ParenthesizedType"
  | .keyword k => k.kindName
  | .sourceFile => "SourceFile"
  | .unknown => "Unknown"

/-- The kind with a given name. -/
def ofName? (text : String) : Option Kind :=
  all.find? (·.name == text)

/-- The words of a name in capitals, with an underscore before every further capital. -/
def capitals : List Char → List Char
  | [] => []
  | c :: rest =>
    c.toUpper :: rest.flatMap fun d => if d.isUpper then ['_', d] else [d.toUpper]

/-- The name of a kind as a constant. -/
def constant (kind : Kind) : String :=
  String.ofList (capitals kind.name.toList)

/-- The kinds that only occur as the name of a property, method or parameter. -/
def nameOnly : List Kind := [.stringLiteral, .numericLiteral, .computedName]

/-- Whether the compiler has a rule for a kind. -/
def isHandled (kind : Kind) : Bool :=
  kind != .unknown && !nameOnly.contains kind

/-- The names of the kinds that satisfy a condition, sorted. -/
def sortedNames (p : Kind → Bool) : List String :=
  ((all.filter p).map name).mergeSort (fun a b => decide (a ≤ b))

end Kind

end TypeSuite
