import TypeSuite.Source.Parser

/-!
# Types and members

The grammar of types, of the members of interfaces and of parameters. A union binds looser than an
intersection, and a conditional type looser than a union. The result of a function type extends as
far as it can.
-/

namespace TypeSuite.Source

open TypeSuite.Source.Parser

/-- Words that cannot name a variable or a parameter. -/
def reservedWords : List String :=
  ["break", "case", "catch", "class", "const", "continue", "debugger", "default", "delete", "do",
   "else", "enum", "extends", "false", "finally", "for", "function", "if", "import", "in",
   "instanceof", "new", "null", "return", "super", "switch", "this", "throw", "true", "try",
   "typeof", "var", "void", "while", "with"]

/-- Words that are built-in types. -/
def builtInTypes : List String :=
  ["any", "number", "boolean", "string", "symbol", "void", "unknown", "never", "object"]

/-- Words that are literal types. -/
def literalWords : List String := ["null", "undefined", "true", "false"]

/-- Words that begin a type of a special form, and so name no type. -/
def typeOperators : List String :=
  ["unique", "keyof", "typeof", "infer", "readonly", "new", "abstract"]

namespace TypeRules

/-! ## References -/

/-- Arguments between angle brackets; there is at least one. -/
def typeArguments (g : Grammar) : Parser Tree := do
  let first ← mark "<"
  match ← listUntil ">" (g .type) with
  | [] => failure
  | types => close "type_arguments" first types

/-- A dotted name. -/
def dottedName : Parser Tree := do
  let first ← sort .word
  let more ← collect do
    if ← skipMark "." then some <$> sort .word else return none
  close (if more.isEmpty then "type_identifier" else "nested_type_identifier") first []

/-- A name with its arguments, if it has any. -/
def reference (g : Grammar) : Parser Tree := do
  let first ← peek
  let name ← dottedName
  if ← atMark "<" then
    let arguments ← g .typeArguments
    close "generic_type" first [inField "name" name, inField "type_arguments" arguments]
  else return name

/-- An import used as a type. -/
def importType (g : Grammar) : Parser Tree := do
  let first ← word "import"
  let _ ← mark "("
  let _ ← listUntil ")" (g .type)
  let names ← collect do
    if ← skipMark "." then some <$> sort .word else return none
  let base ← close (if names.isEmpty then "call_expression" else "member_expression") first []
  if ← atMark "<" then
    let arguments ← g .typeArguments
    close "generic_type" first [inField "name" base, inField "type_arguments" arguments]
  else return base

/-- A type parameter. -/
def typeParameter (g : Grammar) : Parser Tree := do
  let first ← peek
  let _ ← collect do
    let t ← peek
    let next ← peekSecond
    if next.sort == .word && next.text != "extends" &&
        ["const", "in", "out"].contains t.text then some <$> take
    else return none
  let _ ← sort .word
  if ← skipWord "extends" then
    let _ ← g .type
  if ← skipMark "=" then
    let _ ← g .type
  close "type_parameter" first []

/-- Type parameters between angle brackets; there is at least one. -/
def typeParameters (g : Grammar) : Parser Tree := do
  let first ← mark "<"
  match ← listUntil ">" (typeParameter g) with
  | [] => failure
  | parameters => close "type_parameters" first parameters

/-- Type parameters, if there are any here. -/
def skipTypeParameters (g : Grammar) : Parser Unit := do
  if ← atMark "<" then
    let _ ← g .typeParameters

/-! ## Annotations -/

/-- An assertion about a parameter, which may go on with a predicate. -/
def assertion (g : Grammar) : Parser Unit := do
  let _ ← word "asserts"
  let _ ← sort .word
  if ← atWord "is" then
    if ← onSameLine then
      let _ ← take
      let _ ← g .type

/-- A predicate on a parameter. -/
def predicate (g : Grammar) : Parser Unit := do
  let _ ← sort .word
  unless ← onSameLine do failure
  let _ ← word "is"
  let _ ← g .type

/-- Whether an assertion begins here. -/
def atAssertion : Parser Bool := do
  let next ← peekSecond
  return (← atWord "asserts") && next.sort == .word && next.text != "is"

/-- Whether a predicate begins here. -/
def atPredicate : Parser Bool :=
  canRead do
    let _ ← sort .word
    unless ← onSameLine do failure
    let _ ← word "is"

/-- The result of a function type. -/
def resultType (g : Grammar) : Parser Tree := do
  let first ← peek
  if ← atAssertion then
    assertion g
    close "asserts" first []
  else if ← atPredicate then
    predicate g
    close "type_predicate" first []
  else g .type

/-- A colon with a type. -/
def annotated (g : Grammar) : Parser Tree := do
  let first ← mark ":"
  let type ← g .type
  close "type_annotation" first [type]

/-- A colon with the result of a function. -/
def annotatedResult (g : Grammar) : Parser Tree := do
  let first ← mark ":"
  if ← atAssertion then
    assertion g
    close "asserts_annotation" first []
  else if ← atPredicate then
    predicate g
    close "type_predicate_annotation" first []
  else
    let type ← g .type
    close "type_annotation" first [type]

/-- A part that may be absent, in a field of its parent. -/
def optionalField (field : String) (present : Parser Bool) (p : Parser Tree) :
    Parser (List Tree) := do
  if ← present then return [inField field (← p)] else return []

/-- The annotation of a member or a parameter, if there is one. -/
def typeField (g : Grammar) : Parser (List Tree) :=
  optionalField "type" (atMark ":") (annotated g)

/-- The result annotation of a method, if there is one. -/
def resultField (g : Grammar) : Parser (List Tree) :=
  optionalField "return_type" (atMark ":") (annotatedResult g)

/-! ## Parameters -/

/-- Whether a token may begin the pattern of a parameter or a variable. -/
def beginsPattern (t : Token) : Bool :=
  t.sort == .word || (t.sort == .mark && (t.text == "\x7b" || t.text == "["))

/-- The words that may stand in front of a parameter. -/
def parameterModifiers : List String :=
  ["public", "private", "protected", "override", "readonly"]

/-- A default value, if there is one. -/
def skipDefault (g : Grammar) : Parser Unit := do
  if ← skipMark "=" then
    let _ ← g .expression

/-- The pattern of a parameter. -/
def parameterPattern (g : Grammar) : Parser Tree := do
  let first ← peek
  if ← skipMark "..." then
    let inner ← g .pattern
    close "rest_pattern" first [inner]
  else if ← atWord "this" then return leaf "this" (← take)
  else g .pattern

/-- A parameter. -/
def parameter (g : Grammar) : Parser Tree := do
  let first ← peek
  let _ ← collect do
    if ← skipMark "@" then some <$> g .operand else return none
  let _ ← collect do
    let t ← peek
    let next ← peekSecond
    if t.sort == .word && parameterModifiers.contains t.text && beginsPattern next then
      some <$> take
    else return none
  let pattern ← parameterPattern g
  let isOptional ← skipMark "?"
  let type ← typeField g
  skipDefault g
  close (if isOptional then "optional_parameter" else "required_parameter") first
    (inField "pattern" pattern :: type)

/-- Parameters between parentheses. -/
def parameters (g : Grammar) : Parser Tree := do
  let first ← mark "("
  let items ← listUntil ")" (parameter g)
  close "formal_parameters" first items

/-- A property in an object pattern. -/
def patternProperty (g : Grammar) : Parser Unit := do
  if ← skipMark "..." then
    let _ ← g .pattern
  else
    let t ← peek
    if ← skipMark "[" then
      let _ ← g .expression
      let _ ← mark "]"
    else
      let _ ← takeIf fun t => t.sort == .word || t.sort == .string || t.sort == .number
    if ← skipMark ":" then
      let _ ← g .pattern
    else if t.sort != .word || reservedWords.contains t.text then failure
    skipDefault g

/-- An element of an array pattern, which may be left out. -/
def patternElement (g : Grammar) : Parser Unit := do
  unless ← atMark "," do
    let _ ← skipMark "..."
    let _ ← g .pattern
    skipDefault g

/-- The name or the pattern of a variable or a parameter. -/
def pattern (g : Grammar) : Parser Tree := do
  let first ← peek
  if ← skipMark "\x7b" then
    let _ ← listUntil "\x7d" (patternProperty g)
    close "object_pattern" first []
  else if ← skipMark "[" then
    let _ ← listUntil "]" (patternElement g)
    close "array_pattern" first []
  else
    let t ← sort .word
    if reservedWords.contains t.text then failure
    return leaf (if t.text == "undefined" then "undefined" else "identifier") t

/-! ## Members -/

/-- Whether a token may begin the name of a member. -/
def beginsName (t : Token) : Bool :=
  match t.sort with
  | .word | .privateName | .string | .number => true
  | .mark => t.text == "["
  | _ => false

/-- Takes a word in front of a member if a name follows it on the same line. -/
def skipModifier (words : List String) : Parser Bool := do
  let t ← peek
  let next ← peekSecond
  let broken := beginsLine false next && next.breakAt.isSome
  if t.sort == .word && words.contains t.text && beginsName next && !broken then
    let _ ← take
    return true
  else return false

/-- The name of a member. -/
def memberName (g : Grammar) : Parser Tree := do
  let first ← peek
  match first.sort with
  | .word => return leaf "property_identifier" (← take)
  | .privateName => return leaf "private_property_identifier" (← take)
  | .string => return leaf "string" (← take)
  | .number => return leaf "number" (← take)
  | _ =>
    let _ ← mark "["
    let _ ← g .expression
    let _ ← mark "]"
    close "computed_property_name" first []

/-- Whether an index signature begins here, from its bracket on. -/
def atIndex : Parser Bool :=
  canRead do
    let _ ← mark "["
    let _ ← sort .word
    let _ ← takeIf fun t =>
      (t.sort == .mark && t.text == ":") || (t.sort == .word && t.text == "in")

/-- An index signature or a mapped type, from its bracket on. -/
def indexSignature (g : Grammar) (first : Token) : Parser Tree := do
  let _ ← mark "["
  let _ ← sort .word
  if ← skipMark ":" then
    let _ ← g .type
  else
    let _ ← word "in"
    let _ ← g .type
    if ← skipWord "as" then
      let _ ← g .type
  let _ ← mark "]"
  let signed := (← skipMark "-") || (← skipMark "+")
  if signed then
    let _ ← mark "?"
  else
    let _ ← skipMark "?"
  let _ ← annotated g
  close "index_signature" first []

/-- The parameters and the result of a method. -/
def callFields (g : Grammar) : Parser (List Tree) := do
  skipTypeParameters g
  let parameters ← g .parameters
  let result ← resultField g
  return inField "parameters" parameters :: result

/-- Whether the parameters of a method begin here. -/
def atCall : Parser Bool := do
  if ← atMark "<" then return true
  if ← atMark "(" then onSameLine else return false

/-- A property or a method, from its modifiers on. -/
def namedMember (g : Grammar) (first : Token) (methodOnly : Bool) : Parser Tree := do
  let name ← memberName g
  let question ← optional (mark "?")
  let children := inField "name" name :: (question.map fixed).toList
  if ← atCall then
    let call ← callFields g
    close "method_signature" first (children ++ call)
  else if methodOnly then failure
  else
    let type ← typeField g
    close "property_signature" first (children ++ type)

/-- A member whose syntax begins with a word that says how it is accessed. -/
def modifiedMember (g : Grammar) (first : Token) : Parser Tree := do
  let _ ← skipModifier ["public", "private", "protected"]
  let _ ← skipModifier ["static"]
  let _ ← skipModifier ["override"]
  let _ ← skipModifier ["readonly"]
  if ← atIndex then indexSignature g first
  else
    let isAsync ← skipModifier ["async"]
    let isAccessor ← skipModifier ["get", "set"]
    let isGenerator ← skipMark "*"
    namedMember g first (isAsync || isAccessor || isGenerator)

/-- A construct signature, from its parameters on. -/
def constructSignature (g : Grammar) (first : Token) : Parser Tree := do
  skipTypeParameters g
  let _ ← g .parameters
  let _ ← typeField g
  close "construct_signature" first []

/-- Whether a mark opens the parameters of a signature. -/
def opensCall (t : Token) : Bool :=
  t.sort == .mark && (t.text == "(" || t.text == "<")

/-- A member of an interface. -/
def member (g : Grammar) : Parser Tree := do
  let first ← peek
  let next ← peekSecond
  if opensCall first then
    let _ ← callFields g
    close "call_signature" first []
  else if first.sort == .word && first.text == "new" && opensCall next then
    let _ ← take
    constructSignature g first
  else if first.sort == .mark && (first.text == "-" || first.text == "+") then
    let _ ← take
    let _ ← word "readonly"
    indexSignature g first
  else modifiedMember g first

/-- Members between braces. Each is followed by a separator, a line break or the closing brace. -/
def body (g : Grammar) : Parser Tree := do
  let first ← mark "\x7b"
  if (← skipMark ",") || (← skipMark ";") then
    if ← atMark "\x7d" then failure
  let members ← collect do
    if ← atMark "\x7d" then return none
    let m ← member g
    unless (← atMark "\x7d") || (← skipMark ",") || (← skipMark ";") do
      if (← breakHere false).isNone then failure
    return some m
  let _ ← mark "\x7d"
  close "object_type" first members

/-! ## Types -/

/-- A function type. -/
def functionType (g : Grammar) : Parser Tree := do
  let first ← peek
  skipTypeParameters g
  let parameters ← g .parameters
  let _ ← mark "=>"
  let result ← resultType g
  close "function_type" first [inField "parameters" parameters, inField "return_type" result]

/-- A constructor type, from the word that begins it on. -/
def constructorType (g : Grammar) : Parser Tree := do
  let first ← peek
  let _ ← skipWord "abstract"
  let _ ← word "new"
  skipTypeParameters g
  let _ ← g .parameters
  let _ ← mark "=>"
  let _ ← g .type
  close "constructor_type" first []

/-- An element of a tuple. -/
def tupleElement (g : Grammar) : Parser Tree := do
  let first ← peek
  let next ← peekSecond
  if ← skipMark "..." then
    let t ← peek
    let after ← peekSecond
    if t.sort == .word && after.sort == .mark && after.text == ":" then
      let _ ← take
      let _ ← annotated g
      close "required_parameter" first []
    else
      let _ ← g .type
      close "rest_type" first []
  else if first.sort == .word && next.sort == .mark && next.text == ":" then
    let _ ← take
    let _ ← annotated g
    close "required_parameter" first []
  else if ← canRead (do
      let _ ← sort .word
      let _ ← mark "?"
      let _ ← mark ":") then
    let _ ← take
    let _ ← take
    let _ ← annotated g
    close "optional_parameter" first []
  else
    let type ← g .type
    if ← skipMark "?" then close "optional_type" first [type] else return type

/-- What `typeof` asks the type of. -/
def queryTarget (g : Grammar) : Parser Unit := do
  if ← atWord "import" then
    let _ ← importType g
  else
    let _ ← sort .word
    let _ ← collect do
      if (← skipMark ".") || (← skipMark "?.") then
        some <$> takeIf fun t => t.sort == .word || t.sort == .privateName
      else if ← canRead (do
          let _ ← mark "["
          let _ ← takeIf fun t => t.sort == .string || t.sort == .number ||
            (t.sort == .word && builtInTypes.contains t.text)
          let _ ← mark "]") then
        let _ ← take
        let _ ← take
        some <$> take
      else return none
    if ← atMark "<" then
      let _ ← g .typeArguments

/-- A type that a word begins. -/
def wordType (g : Grammar) : Parser Tree := do
  let first ← peek
  if builtInTypes.contains first.text then return leaf "predefined_type" (← take)
  else if literalWords.contains first.text then return leaf "literal_type" (← take)
  else match first.text with
    | "this" => return leaf "this_type" (← take)
    | "const" => return leaf "const" (← take)
    | "unique" =>
      let _ ← take
      let _ ← word "symbol"
      close "predefined_type" first []
    | "typeof" =>
      let _ ← take
      queryTarget g
      close "type_query" first []
    | "import" => importType g
    | text => if typeOperators.contains text then failure else reference g

/-- A type without anything behind it. -/
def primaryType (g : Grammar) : Parser Tree := do
  let first ← peek
  match first.sort with
  | .string | .number => return leaf "literal_type" (← take)
  | .template => return leaf "template_literal_type" (← take)
  | .word => wordType g
  | .mark =>
    match first.text with
    | "(" =>
      let _ ← take
      let type ← g .type
      let _ ← mark ")"
      close "parenthesized_type" first [type]
    | "[" =>
      let _ ← take
      let types ← listUntil "]" (tupleElement g)
      close "tuple_type" first types
    | "\x7b" => g .bodyType
    | "-" | "+" =>
      let _ ← take
      let _ ← sort .number
      close "literal_type" first []
    | "*" => return leaf "existential_type" (← take)
    | _ => failure
  | _ => failure

/-- The brackets behind a type, at most `count` of them. -/
def brackets (g : Grammar) (first : Token) : Nat → Tree → Parser Tree
  | 0, type => return type
  | count + 1, type => do
    if (← atMark "[") && (← onSameLine) then
      let _ ← take
      if ← skipMark "]" then
        brackets g first count (← close "array_type" first [type])
      else
        let _ ← g .type
        let _ ← mark "]"
        brackets g first count (← close "lookup_type" first [])
    else return type

/-- A type with the brackets behind it. -/
def postfixType (g : Grammar) : Parser Tree := do
  let first ← peek
  let type ← primaryType g
  let c ← get
  brackets g first c.rest.length type

/-- A type that binds tighter than an intersection, or a function type. -/
def operandType (g : Grammar) : Parser Tree := do
  let first ← peek
  match first.sort, first.text with
  | .word, "keyof" =>
    let _ ← take
    let _ ← g .operandType
    close "index_type_query" first []
  | .word, "readonly" =>
    let _ ← take
    let _ ← g .type
    close "readonly_type" first []
  | .word, "infer" =>
    let _ ← take
    let _ ← sort .word
    let _ ← optional do
      let _ ← word "extends"
      g .unionType
    close "infer_type" first []
  | .word, "new" => constructorType g
  | .word, "abstract" => constructorType g
  | .mark, "<" => functionType g
  | .mark, "(" =>
    match ← optional (functionType g) with
    | some type => return type
    | none => postfixType g
  | _, _ => postfixType g

/-- Types with a mark between them, and perhaps in front. A single type without the mark stays as
it is. -/
def chain (sign kind : String) (item : Parser Tree) : Parser Tree := do
  let first ← peek
  let leading ← collect (optional (mark sign))
  let type ← item
  let more ← collect do
    if ← skipMark sign then
      let _ ← collect (optional (mark sign))
      some <$> item
    else return none
  if leading.isEmpty && more.isEmpty then return type
  else close kind first (type :: more)

/-- A union, or a type that binds tighter. -/
def unionType (g : Grammar) : Parser Tree :=
  chain "|" "union_type" (chain "&" "intersection_type" (g .operandType))

/-- A type. -/
def type (g : Grammar) : Parser Tree := do
  let first ← peek
  let left ← g .unionType
  if (← atWord "extends") && (← onSameLine) then
    let _ ← take
    let _ ← g .unionType
    let _ ← mark "?"
    let _ ← g .type
    let _ ← mark ":"
    let _ ← g .type
    close "conditional_type" first []
  else return left

end TypeRules

end TypeSuite.Source
