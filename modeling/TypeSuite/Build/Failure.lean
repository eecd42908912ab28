import TypeSuite.Compile.Error
import TypeSuite.Store.Report
import TypeSuite.Tree.Lowering
import TypeSuite.Tree.Problem
import TypeSuite.Validator.Render

/-!
# Failures of a build

A source may fail to become a module at each step on the way. Some failures are reported and leave
the other files of a build alone; all others end the build.
-/

namespace TypeSuite

/-- Why a source does not become a module. -/
inductive Failure where
  /-- The source does not follow the grammar. -/
  | refused (r : SyntaxRefusal)
  /-- A declaration cannot be compiled. -/
  | compile (e : CompileError)
  /-- The source file, under the name it was given, cannot be read. -/
  | unreadable (given : String) (e : FileError)
  /-- The generated file cannot be written. -/
  | unwritable (output : Path) (e : FileError)
  /-- A tree of the source has no meaning where it stands. -/
  | lowering (fault : LoweringFault)
  /-- A compiled expression has no written form. -/
  | render (e : RenderError)
deriving DecidableEq, Repr

/-- The report of a failure that leaves the other files of a build alone; `none` for a failure that
ends the build. -/
def Failure.report? : Failure → Option String
  | .refused r => some r.message
  | .compile e => some e.message
  | .unreadable given e => e.message?.map fun text => "Failed to read " ++ given ++ ": " ++ text
  | .unwritable output e =>
    e.message?.map fun text => "Failed to write " ++ output.toString ++ ": " ++ text
  | .lowering _ => none
  | .render _ => none

end TypeSuite
