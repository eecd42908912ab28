import TypeSuite.Compile.Exports
import TypeSuite.Compile.Resolver
import TypeSuite.Log.Event

/-!
# The compiler

A node is compiled in one pass from the top: a declaration's own name is resolved before anything
below it, and a finished declaration is exported last. What was resolved, exported and reported
before an error stays so after it.
-/

namespace TypeSuite

/-- What a compilation takes from outside. -/
structure CompileSettings (σ : Type) where
  resolver : Resolver σ
  /-- The name of whatever declares none. -/
  fallback : String
  /-- The generic type that stands for its single argument. -/
  wrapper : String

/-- What a compilation has done so far. -/
structure Progress (σ : Type) where
  /-- The memory of the resolver. -/
  session : σ
  exports : Exports
  /-- The reports, oldest first. -/
  events : List Event

/-- The start of a compilation. -/
def Progress.start {σ : Type} (session : σ) : Progress σ :=
  ⟨session, .empty, []⟩

/-- A step of a compilation, which keeps its progress when it fails. -/
abbrev Compile (σ : Type) := ExceptT CompileError (StateM (Progress σ))

namespace Compile

variable {σ : Type}

/-- Reports an event. -/
def report (event : Event) : Compile σ Unit :=
  modify fun p => { p with events := p.events ++ [event] }

/-- Asks the resolver for the name that a node declares. -/
def ask (settings : CompileSettings σ) (node : Node) : Compile σ (Option String) :=
  modifyGet fun p =>
    let (answer, session) := (settings.resolver node).run p.session
    (answer, { p with session })

/-- The name that a node declares, or the fallback. -/
def resolveName (settings : CompileSettings σ) (node : Node) : Compile σ String := do
  match ← ask settings node with
  | some name => return name
  | none =>
    report (.unresolved node.kindName node.text settings.fallback)
    return settings.fallback

/-- Exports a declaration. -/
def addExport (d : Declaration) : Compile σ Validator := do
  let p ← get
  match p.exports.add d with
  | .error e => throw e
  | .ok exports =>
    set { p with exports }
    return d.toValidator

/-- A member's value, marked when the member may be absent. -/
def optionalValue (optional : Bool) (value : Validator) : Validator :=
  if optional then .opt value else value

mutual
/-- Compiles a node that is not directly inside the source file. -/
def node (settings : CompileSettings σ) : Node → Compile σ Validator
  | .identifier text => return .ref text
  | .stringLiteral text => throw (.unsupportedNode Kind.stringLiteral.name text)
  | .numericLiteral text => throw (.unsupportedNode Kind.numericLiteral.name text)
  | .computedName text => throw (.unsupportedNode Kind.computedName.name text)
  | .parameter name type optional _ => do
    let name ← resolveName settings name
    return .param name (← annotated settings type) optional
  | .property name type optional _ => do
    let name ← resolveName settings name
    return .member name (optionalValue optional (← annotated settings type))
  | .method name parameters type _ => do
    let name ← resolveName settings name
    let result ← annotated settings type
    return .member name (.func result (← nodes settings parameters))
  | .reference name [] _ => return .ref name.text
  | .reference name [argument] text =>
    if name.text = settings.wrapper then node settings argument
    else throw (.unsupportedGenerics text)
  | .reference _ (_ :: _ :: _) text => throw (.unsupportedGenerics text)
  | .function parameters type _ => do
    let result ← annotated settings type
    return .func result (← nodes settings parameters)
  | .typeLiteral members _ => return .iface [] (← nodes settings members)
  | .array element _ => return .array (← node settings element)
  | .tuple elements _ => return .tuple (← nodes settings elements)
  | .union types _ => return .union (← nodes settings types)
  | .literal text => return .literal text
  | .interface name heritage members _ => do
    let name ← resolveName settings name
    let members ← nodes settings members
    let bases ← nodes settings heritage
    addExport ⟨name, .iface bases members⟩
  | .alias name type _ => do
    let name ← resolveName settings name
    let value ← node settings type
    addExport ⟨name, value⟩
  | .heritage expression _ _ => node settings expression
  | .parenthesized type _ => node settings type
  | .keyword keyword _ => return .ref keyword.name
  | .sourceFile fileName statements _ => do
    let declarations ← statementList settings fileName statements
    let p ← get
    return CheckerModule.toValidator ⟨fileName, declarations, p.exports.entries⟩
  | .unknown form text => throw (.unsupportedNode form text)

/-- Compiles nodes from left to right. -/
def nodes (settings : CompileSettings σ) : List Node → Compile σ (List Validator)
  | [] => return []
  | n :: rest => do
    let value ← node settings n
    return value :: (← nodes settings rest)

/-- Compiles an annotation; an absent one admits everything. -/
def annotated (settings : CompileSettings σ) : Option Node → Compile σ Validator
  | none => return .any
  | some type => node settings type

/-- Compiles the statements of a file and keeps the declarations among their values. Statements
without a rule are skipped. -/
def statementList (settings : CompileSettings σ) (fileName : String) :
    List Node → Compile σ (List Declaration)
  | [] => return []
  | n :: rest => do
    if n.kind.isHandled then
      let value ← node settings n
      let declarations ← statementList settings fileName rest
      return value.declaration?.toList ++ declarations
    else
      report (.skipped n.kindName fileName)
      statementList settings fileName rest
end

/-- Compiles a file into a module. -/
def file (settings : CompileSettings σ) (f : SourceFile) : Compile σ CheckerModule := do
  let declarations ← statementList settings f.fileName f.statements
  let p ← get
  return ⟨f.fileName, declarations, p.exports.entries⟩

end Compile

end TypeSuite
