import TypeSuite.Build.Basic
import TypeSuite.Log.Basic

/-!
# Runs

A run builds files one after the other in a workspace. A file that fails is reported and leaves the
other files alone; only a failure without a report ends the run.
-/

namespace TypeSuite

/-- What became of one file of a run. -/
structure FileResult where
  /-- The source file under the name it was given. -/
  source : String
  output : Path
  /-- The report of its failure; nothing when the module was written. -/
  error : Option String
deriving DecidableEq, Repr

/-- Whether a file was built. -/
def FileResult.succeeded (r : FileResult) : Bool :=
  r.error.isNone

/-- What a run changes. -/
structure RunState where
  workspace : Workspace
  /-- The files that were begun, with their outputs. -/
  begun : List (String × Path)

/-- A step of a run, which keeps what was done before it fails. -/
abbrev Run := ExceptT Failure (StateM RunState)

namespace Run

/-- Reports an event to the log. -/
def report (e : Event) : Run Unit :=
  modify fun s => { s with workspace := s.workspace.report e }

/-- Work on the files of the workspace. -/
def onStore {α : Type} (work : StoreWork α) : Run (Except FileError α) := do
  let s ← get
  let (result, workspace) := (Workspace.onStore work).run s.workspace
  set { s with workspace }
  return result

end Run

namespace Builder

/-- The text of the module of a source file, or why there is none. -/
def compileAt (b : Builder) (reader : SourceReader) (source : String) :
    Run (Except Failure String) := do
  let path := Path.ofString source
  match (← get).workspace.store.read path with
  | .error fault => return .error (.unreadable source ⟨fault, path⟩)
  | .ok content =>
    let (result, events) := (b.compileSource reader content path.toString).run []
    events.forM Run.report
    return result

/-- Builds a file and writes its module. -/
def buildFile (b : Builder) (reader : SourceReader) (source : String) :
    Run (Except Failure Unit) := do
  match ← b.compileAt reader source with
  | .error failure => return .error failure
  | .ok text =>
    let output := b.outputPath (Path.ofString source)
    let result ← Run.onStore (StoreWork.writeWithParents output text.toUTF8)
    return result.mapError (.unwritable output)

/-- Builds a file and says what became of it. -/
def runFile (b : Builder) (reader : SourceReader) (source : String) : Run FileResult := do
  let output := b.outputPath (Path.ofString source)
  Run.report (.building source output.toString)
  modify fun s => { s with begun := s.begun ++ [(source, output)] }
  match ← b.buildFile reader source with
  | .ok _ => return ⟨source, output, none⟩
  | .error failure =>
    match failure.report? with
    | none => throw failure
    | some text =>
      Run.report (.failed source text)
      return ⟨source, output, some text⟩

/-- Builds files in order. -/
def run (b : Builder) (reader : SourceReader) (sources : List String) : Run (List FileResult) :=
  sources.mapM (b.runFile reader)

end Builder

end TypeSuite
