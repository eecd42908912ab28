import TypeSuite.Source.TypeRules

/-!
# Expressions

The grammar of expressions, which occur in computed names, in default values and inside statements.
Nothing in an expression has a meaning here; the rules only say where it ends.
-/

namespace TypeSuite.Source

open TypeSuite.Source.Parser TypeRules

namespace ExpressionRules

/-- The part of the source that an expression covers, as a tree without children. -/
def covered (first : Token) : Parser Tree :=
  close "expression" first []

/-! ## Functions -/

/-- The body of an arrow function. -/
def arrowBody (g : Grammar) : Parser Unit := do
  let _ ← if ← atMark "\x7b" then g .block else g .expression

/-- An arrow function with parameters in parentheses. -/
def arrow (g : Grammar) : Parser Unit := do
  let _ ← skipWord "async"
  skipTypeParameters g
  let _ ← g .parameters
  let _ ← resultField g
  let _ ← mark "=>"
  arrowBody g

/-- An arrow function with a single bare parameter. -/
def bareArrow (g : Grammar) : Parser Unit := do
  let next ← peekSecond
  if next.sort == .word then
    let _ ← skipWord "async"
  let _ ← g .pattern
  let _ ← mark "=>"
  arrowBody g

/-- The parameters, the result and the body of a function. -/
def functionTail (g : Grammar) : Parser Unit := do
  skipTypeParameters g
  let _ ← g .parameters
  let _ ← resultField g
  let _ ← g .block

/-- A function as an expression. -/
def functionExpression (g : Grammar) : Parser Unit := do
  let _ ← skipWord "async"
  let _ ← word "function"
  let _ ← skipMark "*"
  unless (← atMark "(") || (← atMark "<") do
    let _ ← sort .word
  functionTail g

/-- Whether a function begins here. -/
def atFunction : Parser Bool := do
  if ← atWord "function" then return true
  let next ← peekSecond
  return (← atWord "async") && next.sort == .word && next.text == "function" &&
    next.breakAt.isNone

/-! ## Classes -/

/-- What a class is derived from. -/
def classHeritage (g : Grammar) : Parser Unit := do
  if ← skipWord "extends" then
    let _ ← g .operand
    if ← atMark "<" then
      let _ ← g .typeArguments
  if ← skipWord "implements" then
    let _ ← commaSeparated (g .type)

/-- A class from its keyword on. A declaration must have a name. -/
def classTail (g : Grammar) (named : Bool) : Parser Unit := do
  let _ ← word "class"
  let t ← peek
  if t.sort == .word && t.text != "extends" && t.text != "implements" then
    let _ ← take
  else if named then failure
  skipTypeParameters g
  classHeritage g
  let _ ← g .classBody

/-- Words in front of a member of a class. -/
def classModifiers : List String :=
  ["declare", "public", "private", "protected", "static", "abstract", "override", "readonly",
   "async", "accessor", "get", "set"]

/-- The end of a member of a class. -/
def endMember : Parser Unit := do
  unless (← atMark "\x7d") || (← skipMark ",") do endStatement true

/-- A member of a class from its name on. -/
def classNamed (g : Grammar) : Parser Unit := do
  if ← atIndex then
    let first ← peek
    let _ ← indexSignature g first
    endMember
  else
    let _ ← memberName g
    if (← skipMark "?") || (← skipMark "!") then pure ()
    if (← atMark "(") || (← atMark "<") then
      let _ ← callFields g
      if ← atMark "\x7b" then
        let _ ← g .block
      else endMember
    else
      let _ ← typeField g
      skipDefault g
      endMember

/-- A member of a class. -/
def classMember (g : Grammar) : Parser Unit := do
  if ← skipMark ";" then return
  let _ ← collect do
    if ← skipMark "@" then some <$> g .operand else return none
  let next ← peekSecond
  if (← atWord "static") && next.sort == .mark && next.text == "\x7b" then
    let _ ← take
    let _ ← g .block
  else
    let _ ← collect do
      if ← skipModifier classModifiers then return some () else return none
    let star ← peekSecond
    if star.sort == .mark && star.text == "*" && (← atWord "async") then
      let _ ← take
    let _ ← skipMark "*"
    classNamed g

/-- The members of a class between braces. -/
def classBody (g : Grammar) : Parser Tree := do
  let first ← mark "\x7b"
  let _ ← collect do
    if ← atMark "\x7d" then return none else some <$> classMember g
  let _ ← mark "\x7d"
  close "class_body" first []

/-! ## Literals -/

/-- Expressions with commas between them. -/
def sequence (g : Grammar) : Parser Unit := do
  let _ ← commaSeparated (g .expression)

/-- An element of an array, which may be left out, or an argument. -/
def element (g : Grammar) : Parser Unit := do
  unless ← atMark "," do
    let _ ← skipMark "..."
    let _ ← g .expression

/-- An argument of a call. -/
def argument (g : Grammar) : Parser Unit := do
  let _ ← skipMark "..."
  let _ ← g .expression

/-- A property of an object. -/
def property (g : Grammar) : Parser Unit := do
  if ← skipMark "..." then
    let _ ← g .expression
  else
    let _ ← collect do
      if ← skipModifier ["async", "get", "set"] then return some () else return none
    let generator ← skipMark "*"
    let t ← peek
    let _ ← memberName g
    if (← atMark "(") || (← atMark "<") then functionTail g
    else if generator then failure
    else if ← skipMark ":" then
      let _ ← g .expression
    else if t.sort != .word || reservedWords.contains t.text then failure
    else skipDefault g

/-! ## Operands -/

/-- An operand that a word begins. -/
def wordOperand (g : Grammar) : Parser Unit := do
  let t ← peek
  if ← atFunction then functionExpression g
  else match t.text with
    | "class" => classTail g false
    | "new" =>
      let _ ← take
      if ← skipMark "." then
        let _ ← sort .word
      else
        let _ ← g .operand
    | "import" | "super" | "this" | "null" | "true" | "false" =>
      let _ ← take
    | text =>
      if reservedWords.contains text then failure
      let _ ← take

/-- An operand without anything behind it. -/
def primary (g : Grammar) : Parser Unit := do
  let t ← peek
  match t.sort with
  | .word => wordOperand g
  | .number | .string | .template | .pattern | .privateName =>
    let _ ← take
  | .mark =>
    match t.text with
    | "(" =>
      let _ ← take
      sequence g
      let _ ← mark ")"
    | "[" =>
      let _ ← take
      let _ ← listUntil "]" (element g)
    | "\x7b" =>
      let _ ← take
      let _ ← listUntil "\x7d" (property g)
    | "@" =>
      let _ ← take
      let _ ← g .operand
      classTail g false
    | _ => failure
  | .finish => failure

/-- The name of a property behind a point. -/
def propertyName : Parser Unit := do
  let _ ← takeIf fun t => t.sort == .word || t.sort == .privateName

/-- Type arguments of a call. -/
def callTypeArguments (g : Grammar) : Parser Unit := do
  let _ ← g .typeArguments
  let t ← peek
  unless t.sort == .template || (t.sort == .mark && t.text == "(") do failure

/-- One thing behind an operand; `none` when nothing more belongs to it. -/
def suffix (g : Grammar) : Parser (Option Unit) := do
  let t ← peek
  match t.sort, t.text with
  | .template, _ => giving (some ()) take
  | .mark, "." =>
    let _ ← take
    some <$> propertyName
  | .mark, "?." =>
    let _ ← take
    if (← atMark "(") || (← atMark "[") then return some () else some <$> propertyName
  | .mark, "(" =>
    let _ ← take
    giving (some ()) (listUntil ")" (argument g))
  | .mark, "[" =>
    let _ ← take
    sequence g
    giving (some ()) (mark "]")
  | .mark, "!" | .mark, "++" | .mark, "--" =>
    if ← onSameLine then giving (some ()) take else return none
  | .mark, "<" => optional (callTypeArguments g)
  | _, _ => return none

/-- An operand with everything behind it. -/
def operand (g : Grammar) : Parser Tree := do
  let first ← peek
  primary g
  let _ ← collect (suffix g)
  covered first

/-! ## Operators -/

/-- Marks in front of an operand. -/
def prefixMarks : List String := ["!", "~", "+", "-", "++", "--"]

/-- Words in front of an operand. -/
def prefixWords : List String := ["typeof", "void", "delete", "await"]

/-- One thing in front of an operand; `none` when the operand follows. -/
def leading (g : Grammar) : Parser (Option Unit) := do
  let t ← peek
  match t.sort with
  | .mark =>
    if prefixMarks.contains t.text then giving (some ()) take
    else if t.text == "<" then
      let _ ← take
      let _ ← g .type
      giving (some ()) (mark ">")
    else return none
  | .word => if prefixWords.contains t.text then giving (some ()) take else return none
  | _ => return none

/-- An operand with everything around it. -/
def unary (g : Grammar) : Parser Unit := do
  let _ ← collect (leading g)
  let _ ← g .operand

/-- Marks between two operands. -/
def binaryMarks : List String :=
  ["+", "-", "*", "/", "%", "**", "==", "===", "!=", "!==", "&&", "||", "??", "&", "|", "^"]

/-- Marks that assign. -/
def assignmentMarks : List String :=
  ["=", "+=", "-=", "*=", "/=", "%=", "**=", "&&=", "||=", "??=", "&=", "|=", "^="]

/-- The rest of an operator made of angle brackets and an equality sign. -/
def angleTail : Parser Unit := do
  let _ ← collect do
    let t ← peek
    if t.sort == .mark && ["<", ">", "=", "==", "==="].contains t.text && t.start == (← last) then
      some <$> take
    else return none

/-- One operator with the operand behind it; `none` when the expression ends. -/
def binary (g : Grammar) : Parser (Option Unit) := do
  let t ← peek
  match t.sort with
  | .mark =>
    if binaryMarks.contains t.text then
      let _ ← take
      some <$> unary g
    else if t.text == "<" || t.text == ">" then
      let _ ← take
      angleTail
      some <$> unary g
    else return none
  | .word =>
    match t.text with
    | "in" | "instanceof" =>
      let _ ← take
      some <$> unary g
    | "as" | "satisfies" =>
      if ← onSameLine then
        let _ ← take
        giving (some ()) (g .unionType)
      else return none
    | _ => return none
  | _ => return none

/-- What may follow operands and operators: a choice or an assignment. -/
def tail (g : Grammar) : Parser Unit := do
  let t ← peek
  if t.sort == .mark then
    if t.text == "?" then
      let _ ← take
      let _ ← g .expression
      let _ ← mark ":"
      let _ ← g .expression
    else if assignmentMarks.contains t.text then
      let _ ← take
      let _ ← g .expression

/-- What follows the word that yields a value. -/
def yieldTail (g : Grammar) : Parser Unit := do
  let _ ← word "yield"
  if ← skipMark "*" then
    let _ ← g .expression
  else if ← onSameLine then
    let _ ← optional (g .expression)

/-- Whether a bare parameter and an arrow begin here. -/
def atBareArrow : Parser Bool := do
  let t ← peek
  let next ← peekSecond
  if t.sort != .word then return false
  else if next.sort == .mark && next.text == "=>" then return true
  else if t.text == "async" && next.sort == .word then
    canRead do
      let _ ← take
      let _ ← take
      let _ ← mark "=>"
  else return false

/-- An expression without a comma at its top. -/
def expression (g : Grammar) : Parser Tree := do
  let first ← peek
  if ← atBareArrow then bareArrow g
  else if ← atWord "yield" then yieldTail g
  else
    let mayBeArrow := opensCall first || (← atWord "async")
    let arrowed ← if mayBeArrow then optional (arrow g) else pure none
    if arrowed.isNone then
      unary g
      let _ ← collect (binary g)
      tail g
  covered first

end ExpressionRules

end TypeSuite.Source
