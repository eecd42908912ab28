/-!
# Validator expressions

A validator expression says which values a declared type admits, one constructor for each builder
of the run-time checker. Declarations and whole modules are expressions of their own sort, so that
a compiler may return them wherever their nodes stand.
-/

namespace TypeSuite

/-- A validator expression. -/
inductive Validator where
  /-- A type by its name. -/
  | ref (name : String)
  /-- A value that may be absent. -/
  | opt (inner : Validator)
  /-- A parameter of a function. -/
  | param (name : String) (type : Validator) (optional : Bool)
  | func (result : Validator) (params : List Validator)
  | iface (bases members : List Validator)
  | array (element : Validator)
  | tuple (elements : List Validator)
  | union (members : List Validator)
  /-- A literal as it was written. -/
  | literal (text : String)
  /-- A named member of an interface. -/
  | member (name : String) (value : Validator)
  /-- An exported name with its expression. -/
  | declaration (name : String) (value : Validator)
  /-- A whole file; both lists hold declarations. -/
  | module (fileName : String) (declarations manifest : List Validator)
  /-- A value of another sort, which is no expression. -/
  | plain (sort : String)
deriving Inhabited, Repr

/-- An exported name with its expression. -/
structure Declaration where
  name : String
  value : Validator
deriving Inhabited, Repr

/-- Everything compiled from one file: its own declarations and all exported ones. -/
structure CheckerModule where
  fileName : String
  declarations : List Declaration
  manifest : List Declaration
deriving Inhabited, Repr

namespace Validator

/-- The reference to the type that admits everything. -/
def any : Validator := .ref "any"

/-- The name of an expression's sort in reports. -/
def sortName : Validator → String
  | .ref _ => "Ref"
  | .opt _ => "Opt"
  | .param .. => "Param"
  | .func .. => "Func"
  | .iface .. => "Iface"
  | .array _ => "Array"
  | .tuple _ => "Tuple"
  | .union _ => "Union"
  | .literal _ => "Literal"
  | .member .. => "Member"
  | .declaration .. => "Declaration"
  | .module .. => "CompiledModule"
  | .plain sort => sort

/-- The name that an expression carries, if its sort has one. -/
def name? : Validator → Option String
  | .ref name => some name
  | .param name _ _ => some name
  | .member name _ => some name
  | .declaration name _ => some name
  | _ => none

/-- The declaration that an expression is, if it is one. -/
def declaration? : Validator → Option Declaration
  | .declaration name value => some ⟨name, value⟩
  | _ => none

end Validator

/-- A declaration as an expression. -/
def Declaration.toValidator (d : Declaration) : Validator :=
  .declaration d.name d.value

/-- A module as an expression. -/
def CheckerModule.toValidator (m : CheckerModule) : Validator :=
  .module m.fileName (m.declarations.map (·.toValidator)) (m.manifest.map (·.toValidator))

/-- The names of the members of an interface; `none` when a member carries no name. -/
def Validator.memberNames? (members : List Validator) : Option (List String) :=
  members.mapM (·.name?)

end TypeSuite
