import TypeSuite.Source.ExpressionRules

/-!
# Statements

The grammar of statements. Interfaces and type aliases are read in full; of all other statements
only the kind and the covered part of the source matter.
-/

namespace TypeSuite.Source

open TypeSuite.Source.Parser TypeRules ExpressionRules

namespace StatementRules

/-- Statements between braces. A line break behind them may hold an automatic semicolon, which
then belongs to the block. -/
def block (g : Grammar) : Parser Tree := do
  let first ← mark "\x7b"
  let _ ← collect do
    if ← atMark "\x7d" then return none else some <$> g .statement
  let _ ← mark "\x7d"
  if let some stop ← breakHere false then
    modify fun c => { c with last := stop }
  close "statement_block" first []

/-! ## Interfaces and aliases -/

/-- The names that an interface extends. -/
def extendsClause (g : Grammar) : Parser Tree := do
  let first ← word "extends"
  let bases ← commaSeparated (reference g)
  close "extends_type_clause" first bases

/-- An interface. -/
def interface (g : Grammar) : Parser Tree := do
  let first ← word "interface"
  let name ← sort .word
  skipTypeParameters g
  let heritage ← optionalField "heritage" (atWord "extends") (extendsClause g)
  let body ← g .bodyType
  close "interface_declaration" first
    (inField "name" (leaf "type_identifier" name) :: heritage ++ [inField "body" body])

/-- A type alias. -/
def typeAlias (g : Grammar) : Parser Tree := do
  let first ← word "type"
  let name ← sort .word
  skipTypeParameters g
  let _ ← mark "="
  let value ← g .type
  endStatement false
  close "type_alias_declaration" first
    [inField "name" (leaf "type_identifier" name), inField "value" value]

/-- Words that go on with an expression, so that the word before them names a variable. -/
def infixWords : List String := ["in", "instanceof", "as", "satisfies"]

/-- Whether a word is followed on its line by a token that a condition holds of. -/
def followedBy (text : String) (p : Token → Bool) : Parser Bool := do
  let next ← peekSecond
  let broken := beginsLine false next && next.breakAt.isSome
  return (← atWord text) && !broken && p next

/-- Whether a token is a word that does not go on with an expression. -/
def isPlainWord (t : Token) : Bool :=
  t.sort == .word && !infixWords.contains t.text

/-! ## Other declarations -/

/-- A variable with its annotation and its value. The flag says whether there is a value. -/
def declarator (g : Grammar) : Parser Bool := do
  let _ ← g .pattern
  let _ ← skipMark "!"
  let _ ← typeField g
  let hasValue ← atMark "="
  skipDefault g
  return hasValue

/-- A declaration of variables. -/
def variableList (g : Grammar) : Parser Tree := do
  let first ← take
  let values ← commaSeparated (declarator g)
  endStatement (values.getLast?.getD false)
  close (if first.text == "var" then "variable_declaration" else "lexical_declaration") first []

/-- A member of an enumeration. -/
def enumMember (g : Grammar) : Parser Unit := do
  let _ ← memberName g
  skipDefault g

/-- An enumeration. -/
def enum (g : Grammar) : Parser Tree := do
  let first ← peek
  let _ ← skipWord "const"
  let _ ← word "enum"
  let _ ← sort .word
  let _ ← mark "\x7b"
  let _ ← listUntil "\x7d" (enumMember g)
  close "enum_declaration" first []

/-- A function; without a body it is a signature. -/
def function (g : Grammar) : Parser Tree := do
  let first ← peek
  let _ ← skipWord "async"
  let _ ← word "function"
  let generator ← skipMark "*"
  let _ ← sort .word
  skipTypeParameters g
  let _ ← g .parameters
  let _ ← resultField g
  if ← atMark "\x7b" then
    let _ ← g .block
    close (if generator then "generator_function_declaration" else "function_declaration") first []
  else
    endStatement false
    close "function_signature" first []

/-- A class. -/
def classDeclaration (g : Grammar) : Parser Tree := do
  let first ← peek
  let _ ← collect do
    if ← skipMark "@" then some <$> g .operand else return none
  let isAbstract ← skipWord "abstract"
  classTail g true
  unless isAbstract do
    if let some stop ← breakHere false then
      modify fun c => { c with last := stop }
  close (if isAbstract then "abstract_class_declaration" else "class_declaration") first []

/-- A module or a namespace, which may lack a body. -/
def module (g : Grammar) : Parser Tree := do
  let first ← take
  if first.text == "module" && (← peek).sort == .string then
    let _ ← take
  else
    let _ ← dottedName
  if ← atMark "\x7b" then
    let _ ← g .block
  close (if first.text == "module" then "module" else "internal_module") first []

/-- An import that gives another name to a dotted one. -/
def importAlias : Parser Tree := do
  let first ← word "import"
  let _ ← sort .word
  let _ ← mark "="
  let _ ← dottedName
  endStatement false
  close "import_alias" first []

/-- Whether an import of that kind begins here. -/
def atImportAlias : Parser Bool :=
  canRead do
    let _ ← word "import"
    let _ ← sort .word
    let _ ← mark "="
    let t ← sort .word
    if t.text == "require" then failure

/-- A declaration; `none` when none begins here. -/
def declaration? (g : Grammar) : Parser (Option Tree) := do
  let t ← peek
  let next ← peekSecond
  if ← atFunction then some <$> function g
  else if t.sort == .mark && t.text == "@" then some <$> classDeclaration g
  else if t.sort != .word then return none
  else match t.text with
    | "interface" => some <$> interface g
    | "enum" => some <$> enum g
    | "class" => some <$> classDeclaration g
    | "abstract" =>
      if next.sort == .word && next.text == "class" then some <$> classDeclaration g
      else return none
    | "const" =>
      if next.sort == .word && next.text == "enum" then some <$> enum g
      else some <$> variableList g
    | "var" => some <$> variableList g
    | "let" => if beginsPattern next then some <$> variableList g else return none
    | "type" => if ← followedBy "type" isPlainWord then some <$> typeAlias g else return none
    | "module" =>
      if ← followedBy "module" (fun n => isPlainWord n || n.sort == .string) then
        some <$> module g
      else return none
    | "import" => if ← atImportAlias then some <$> importAlias else return none
    | _ => return none

/-- Whether an ambient declaration begins here. -/
def atAmbient : Parser Bool :=
  followedBy "declare" fun n =>
    isPlainWord n || (n.sort == .mark && n.text == "@")

/-- Whether a namespace begins here. -/
def atNamespace : Parser Bool :=
  followedBy "namespace" isPlainWord

/-- A declaration that is marked as describing something elsewhere. -/
def ambient (g : Grammar) : Parser Tree := do
  let first ← word "declare"
  if ← followedBy "global" (fun n => n.sort == .mark && n.text == "\x7b") then
    let _ ← take
    let inner ← g .block
    close "ambient_declaration" first [inner]
  else if ← atNamespace then
    let inner ← module g
    close "ambient_declaration" first [inner]
  else
    match ← declaration? g with
    | some inner => close "ambient_declaration" first [inner]
    | none => failure

/-- A declaration that may be exported. -/
def exportable? (g : Grammar) : Parser (Option Tree) := do
  if ← atAmbient then some <$> ambient g
  else if ← atNamespace then some <$> module g
  else declaration? g

/-! ## Imports and exports -/

/-- Whether a token names something a module exports. -/
def namesExport (t : Token) : Bool :=
  t.sort == .word || t.sort == .string

/-- One name of a module, perhaps only as a type, perhaps under another name. -/
def specifier : Parser Unit := do
  let t ← peek
  let next ← peekSecond
  if t.sort == .word && (t.text == "type" || t.text == "typeof") && namesExport next &&
      next.text != "as" then
    let _ ← take
  let _ ← takeIf namesExport
  if ← skipWord "as" then
    let _ ← takeIf namesExport

/-- Names between braces. -/
def specifiers : Parser Unit := do
  let _ ← mark "\x7b"
  let _ ← listUntil "\x7d" specifier

/-- Where an import or an export comes from. -/
def fromClause (g : Grammar) : Parser Unit := do
  let _ ← word "from"
  let _ ← sort .string
  if (← atWord "with") || (← followedBy "assert" fun n => n.sort == .mark && n.text == "\x7b") then
    let _ ← take
    let _ ← g .operand

/-- All names of a module, perhaps under a common name. -/
def everything : Parser Unit := do
  let _ ← mark "*"
  if ← skipWord "as" then
    let _ ← takeIf namesExport

/-- The names between the word and the origin of an import. -/
def importNames : Parser Unit := do
  if ← atMark "\x7b" then specifiers
  else if ← atMark "*" then everything
  else
    let _ ← sort .word
    if ← skipMark "," then
      if ← atMark "*" then everything else specifiers

/-- What an import names. -/
def importClause (g : Grammar) : Parser Unit := do
  let t ← peek
  let next ← peekSecond
  if t.sort == .word && (t.text == "type" || t.text == "typeof") &&
      !(next.sort == .word && next.text == "from") && !(next.sort == .mark && next.text == "=") &&
      !(next.sort == .mark && next.text == ",") then
    let _ ← take
  if ← canRead (do
      let _ ← sort .word
      let _ ← mark "=") then
    let _ ← take
    let _ ← take
    let _ ← word "require"
    let _ ← mark "("
    let _ ← sort .string
    let _ ← mark ")"
  else
    importNames
    fromClause g

/-- An import. -/
def importStatement (g : Grammar) : Parser Tree := do
  let first ← word "import"
  if (← peek).sort == .string then
    let _ ← take
  else importClause g
  endStatement false
  close "import_statement" first []

/-- An export of a declaration. -/
def exported (first : Token) (inner : Tree) : Parser Tree :=
  close "export_statement" first [inField "declaration" inner]

/-- A default export, from the word behind its first one on. -/
def exportDefault (g : Grammar) (first : Token) : Parser Tree := do
  let _ ← word "default"
  match ← optional (do
      match ← exportable? g with
      | some inner => return inner
      | none => failure) with
  | some inner => exported first inner
  | none =>
    let _ ← g .expression
    endStatement true
    close "export_statement" first []

/-- An export of names, from the word or mark behind its first one on. -/
def exportNames (g : Grammar) : Parser Unit := do
  let _ ← skipWord "type"
  if ← atMark "*" then
    everything
    fromClause g
  else
    specifiers
    if ← atWord "from" then fromClause g
  endStatement false

/-- An export. -/
def exportStatement (g : Grammar) : Parser Tree := do
  let first ← word "export"
  let t ← peek
  let next ← peekSecond
  let opensNames (n : Token) : Bool := n.sort == .mark && (n.text == "\x7b" || n.text == "*")
  if ← atWord "default" then exportDefault g first
  else if opensNames t || (t.sort == .word && t.text == "type" && opensNames next) then
    exportNames g
    close "export_statement" first []
  else if ← skipMark "=" then
    let _ ← g .expression
    endStatement true
    close "export_statement" first []
  else if ← skipWord "as" then
    let _ ← word "namespace"
    let _ ← sort .word
    endStatement false
    close "export_statement" first []
  else
    match ← exportable? g with
    | some inner => exported first inner
    | none => failure

/-! ## Control flow -/

/-- A condition in parentheses. -/
def condition (g : Grammar) : Parser Unit := do
  let _ ← mark "("
  sequence g
  let _ ← mark ")"

/-- A choice between statements. -/
def ifStatement (g : Grammar) : Parser Unit := do
  let _ ← word "if"
  condition g
  let _ ← g .statement
  if ← skipWord "else" then
    let _ ← g .statement

/-- An expression that may be left out in front of a mark, which is taken as well. -/
def clause (g : Grammar) (closing : String) : Parser Unit := do
  unless ← atMark closing do sequence g
  let _ ← mark closing

/-- The rest of a loop over a collection. -/
def overCollection (g : Grammar) : Parser Unit := do
  let _ ← takeIf fun t => t.sort == .word && (t.text == "of" || t.text == "in")
  sequence g
  let _ ← mark ")"

/-- The head of a loop over a collection, behind its opening parenthesis. -/
def collectionHead (g : Grammar) : Parser Unit := do
  let next ← peekSecond
  let t ← peek
  if t.sort == .word && ["const", "let", "var"].contains t.text && beginsPattern next then
    let _ ← take
    let _ ← g .pattern
    let _ ← typeField g
    overCollection g
  else
    let _ ← g .operand
    overCollection g

/-- The head of a loop with a counter, behind its opening parenthesis. -/
def counterHead (g : Grammar) : Parser Unit := do
  let t ← peek
  if t.sort == .word && ["const", "let", "var"].contains t.text then
    let _ ← take
    let _ ← commaSeparated (declarator g)
    let _ ← mark ";"
  else clause g ";"
  clause g ";"
  clause g ")"

/-- A loop; the kind says what it runs over. -/
def forStatement (g : Grammar) : Parser String := do
  let _ ← word "for"
  let _ ← skipWord "await"
  let _ ← mark "("
  let kind ← match ← optional (collectionHead g) with
    | some _ => pure "for_in_statement"
    | none => do
      counterHead g
      pure "for_statement"
  let _ ← g .statement
  return kind

/-- A case of a switch. -/
def switchCase (g : Grammar) : Parser Unit := do
  if ← skipWord "default" then pure ()
  else
    let _ ← word "case"
    sequence g
  let _ ← mark ":"
  let _ ← collect do
    if (← atMark "\x7d") || (← atWord "case") || (← atWord "default") then return none
    else some <$> g .statement

/-- A choice between cases. -/
def switchStatement (g : Grammar) : Parser Unit := do
  let _ ← word "switch"
  condition g
  let _ ← mark "\x7b"
  let _ ← collect do
    if ← atMark "\x7d" then return none else some <$> switchCase g
  let _ ← mark "\x7d"

/-- A block with handlers. -/
def tryStatement (g : Grammar) : Parser Unit := do
  let _ ← word "try"
  let _ ← g .block
  if ← skipWord "catch" then
    if ← skipMark "(" then
      let _ ← g .pattern
      let _ ← typeField g
      let _ ← mark ")"
    let _ ← g .block
  if ← skipWord "finally" then
    let _ ← g .block

/-- A jump with a label or a value that may be left out. -/
def jump (g : Grammar) : Parser Unit := do
  let _ ← take
  let stops := (← atMark ";") || (← breakHere false).isSome
  unless stops do sequence g
  endStatement true

/-- A statement that begins with a word of control flow, as its kind; `none` when none does. -/
def control? (g : Grammar) : Parser (Option String) := do
  let t ← peek
  if t.sort != .word then return none
  else match t.text with
    | "if" => giving (some "if_statement") (ifStatement g)
    | "for" => some <$> forStatement g
    | "while" =>
      let _ ← take
      condition g
      giving (some "while_statement") (g .statement)
    | "with" =>
      let _ ← take
      condition g
      giving (some "with_statement") (g .statement)
    | "do" =>
      let _ ← take
      let _ ← g .statement
      let _ ← word "while"
      condition g
      let _ ← skipMark ";"
      return some "do_statement"
    | "switch" => giving (some "switch_statement") (switchStatement g)
    | "try" => giving (some "try_statement") (tryStatement g)
    | "return" => giving (some "return_statement") (jump g)
    | "throw" => giving (some "throw_statement") (jump g)
    | "break" => giving (some "break_statement") (jump g)
    | "continue" => giving (some "continue_statement") (jump g)
    | "debugger" => giving (some "debugger_statement") (jump g)
    | _ => return none

/-! ## Statements -/

/-- An expression used as a statement. A namespace on its own is one. -/
def expressionStatement (g : Grammar) : Parser Tree := do
  let first ← peek
  if ← atNamespace then
    let _ ← module g
  else sequence g
  endStatement true
  close "expression_statement" first []

/-- Whether a label begins here. -/
def atLabel : Parser Bool := do
  let t ← peek
  let next ← peekSecond
  return t.sort == .word && !reservedWords.contains t.text && next.sort == .mark &&
    next.text == ":"

/-- Whether an import begins here rather than an expression. -/
def atImport : Parser Bool := do
  let next ← peekSecond
  return (← atWord "import") &&
    !(next.sort == .mark && (next.text == "(" || next.text == "."))

/-- A statement that is no declaration. -/
def plainStatement (g : Grammar) : Parser Tree := do
  let first ← peek
  if ← skipMark ";" then close "empty_statement" first []
  else if ← atMark "\x7b" then g .block
  else if ← atImport then importStatement g
  else if ← atLabel then
    let _ ← take
    let _ ← take
    let _ ← g .statement
    close "labeled_statement" first []
  else
    match ← control? g with
    | some kind => close kind first []
    | none => expressionStatement g

/-- A statement. A word that is left alone on its line is an expression. -/
def statement (g : Grammar) : Parser Tree := do
  if ← followedBy "export" (fun _ => true) then exportStatement g
  else if ← atAmbient then ambient g
  else
    match ← declaration? g with
    | some tree => return tree
    | none => plainStatement g

end StatementRules

end TypeSuite.Source
