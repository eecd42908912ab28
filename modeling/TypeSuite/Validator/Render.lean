import TypeSuite.Text.Lines
import TypeSuite.Text.Quoted
import TypeSuite.Validator.Basic

/-!
# Generated modules

Expressions are written as calls of the checker's builders. A module is an import line, one exported
constant for each declaration, and the suite of all exported names.
-/

namespace TypeSuite

/-- Why an expression cannot be written. -/
inductive RenderError where
  /-- An expression of this sort has no written form. -/
  | notRenderable (sort : String)
  /-- A member of an interface lacks a name or a value. -/
  | notMember
deriving DecidableEq, Repr

/-- The report of an expression without a written form. -/
def RenderError.message : RenderError → Option String
  | .notRenderable sort => some ("Cannot render " ++ sort)
  | .notMember => none

namespace Validator

/-- The written form of a member of an interface, from its name and its written value. -/
def memberLine (name value : String) : String :=
  Text.indentUnit ++ Text.indent (Text.quote name ++ ": " ++ value) ++ ",\n"

/-- Items separated by a comma and a space. -/
def commaSeparated (items : List String) : String :=
  ", ".intercalate items

mutual
/-- The written form of an expression. -/
def render : Validator → Except RenderError String
  | .ref name => .ok (Text.quote name)
  | .opt inner => do return "t.opt(" ++ (← render inner) ++ ")"
  | .param name type optional => do
    let mark := if optional then ", true" else ""
    return "t.param(" ++ Text.quote name ++ ", " ++ (← render type) ++ mark ++ ")"
  | .func result params => do
    let first ← render result
    return "t.func(" ++ commaSeparated (first :: (← renderAll params)) ++ ")"
  | .iface bases members => do
    let lines ← renderMembers members
    let bases ← renderAll bases
    return "t.iface([" ++ commaSeparated bases ++ "], \x7b\n" ++ lines ++ "\x7d)"
  | .array element => do return "t.array(" ++ (← render element) ++ ")"
  | .tuple elements => do return "t.tuple(" ++ commaSeparated (← renderAll elements) ++ ")"
  | .union members => do return "t.union(" ++ commaSeparated (← renderAll members) ++ ")"
  | .literal text => .ok ("t.lit(" ++ text ++ ")")
  | .member .. => .error (.notRenderable "Member")
  | .declaration .. => .error (.notRenderable "Declaration")
  | .module .. => .error (.notRenderable "CompiledModule")
  | .plain sort => .error (.notRenderable sort)

/-- The written forms of a list of expressions. -/
def renderAll : List Validator → Except RenderError (List String)
  | [] => .ok []
  | e :: rest => do
    let text ← render e
    return text :: (← renderAll rest)

/-- The lines of the members of an interface. Whatever carries a name and a value counts. -/
def renderMembers : List Validator → Except RenderError String
  | [] => .ok ""
  | .member name value :: rest => do
    let text ← render value
    return memberLine name text ++ (← renderMembers rest)
  | .declaration name value :: rest => do
    let text ← render value
    return memberLine name text ++ (← renderMembers rest)
  | _ :: _ => .error .notMember
end

end Validator

/-- The exported constant of a declaration. -/
def Declaration.render (d : Declaration) : Except RenderError String := do
  return "export const " ++ d.name ++ " = " ++ (← d.value.render) ++ ";"

/-- The first lines of a generated module. -/
def importLines (runtimeModule : String) : String :=
  "import * as t from " ++ Text.quote runtimeModule ++ ";\n" ++
    "// tslint:disable:object-literal-key-quotes\n\n"

/-- The last lines of a generated module: the suite of the given names. -/
def suiteLines (names : List String) : String :=
  "const exportedTypeSuite: t.ITypeSuite = \x7b\n" ++
    String.join (names.map fun name => Text.indentUnit ++ name ++ ",\n") ++
    "\x7d;\nexport default exportedTypeSuite;\n"

/-- The text of a generated module. -/
def CheckerModule.render (m : CheckerModule) (runtimeModule : String) :
    Except RenderError String := do
  let blocks ← m.declarations.mapM (·.render)
  return importLines runtimeModule ++ "\n\n".intercalate blocks ++ "\n\n" ++
    suiteLines (m.manifest.map (·.name))

end TypeSuite
