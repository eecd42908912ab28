/-!
# Compilation errors

A declaration tree is refused for syntax without a rule, for type arguments that have no checker,
or for a name that is exported twice.
-/

namespace TypeSuite

/-- Why a declaration tree cannot be compiled. -/
inductive CompileError where
  /-- Type arguments other than the single one of the deferred wrapper. -/
  | unsupportedGenerics (sourceText : String)
  /-- A node without a rule below the top level. -/
  | unsupportedNode (kind sourceText : String)
  /-- A second export of one name. -/
  | duplicateExport (name : String)
deriving DecidableEq, Repr

/-- The report of a compilation error. -/
def CompileError.message : CompileError → String
  | .unsupportedGenerics text =>
    "Generics are not yet supported by ts-interface-builder: " ++ text
  | .unsupportedNode kind text =>
    "Node " ++ kind ++ " not supported by ts-interface-builder: " ++ text
  | .duplicateExport name => "Type " ++ name ++ " is declared more than once"

end TypeSuite
