import TypeSuite.Build.Run
import TypeSuite.Cli.CommandLine
import TypeSuite.Cli.Usage
import TypeSuite.Config.File

/-!
# The program

A run of the program on a workspace: the command line is read, the builder and the log are set up,
the files are built, and what is to be shown is collected.
-/

namespace TypeSuite.Cli

/-- A failure that the program does not report by itself. -/
inductive Crash where
  | config (fault : ConfigFault)
  | log (e : LogError)
  | build (f : Failure)
deriving DecidableEq, Repr

/-- What a run of the program leaves behind. -/
structure Outcome where
  /-- The exit code, or the failure that ended the program. -/
  result : Except Crash Nat
  /-- What is shown before the summary. -/
  shown : String
  /-- The results that the summary of a verbose run is about. -/
  summed : Option (List FileResult)
  workspace : Workspace
  /-- What is written to the error output besides the log. -/
  complaint : String

/-- The error output of a run: the complaint, or the log. -/
def Outcome.errorOutput (o : Outcome) : String :=
  o.complaint ++ String.join o.workspace.log.consoles

/-- The last line of a verbose run, given how many seconds the builds took. -/
def summary (results : List FileResult) (seconds : String) : String :=
  "Compiled " ++ toString (results.countP (·.succeeded)) ++ " of " ++ toString results.length ++
    " files in " ++ seconds ++ "s\n"

/-- The output of a run, given how many seconds the builds took. -/
def Outcome.output (o : Outcome) (seconds : String) : String :=
  match o.summed with
  | none => o.shown
  | some results => o.shown ++ summary results seconds

/-- What the program takes from outside. -/
structure Environment where
  reader : SourceReader
  /-- How configuration files are decoded. -/
  decode : String → Except DecodeError Value

/-- The overrides that a command line makes. There is always a section in them. -/
def overrides (o : Options) : List (Value × Value) :=
  let entry (name : String) (value : Option String) : List (Value × Value) :=
    match value with
    | some text => [(.text name, .text text)]
    | none => []
  [(.text Section.output.name,
    .map (entry Field.suffix.name o.suffix ++ entry Field.outDir.name o.outDir))]

/-- Why a builder cannot be set up, when that is reported. -/
inductive SetupFault where
  | reported (message : String)
  | unreported (fault : ConfigFault)

/-- The configuration that a command line starts from. -/
def baseConfig (env : Environment) (store : Store) (o : Options) : Except SetupFault Config :=
  match o.config with
  | none => .ok {}
  | some path => (Config.load env.decode store path).mapError fun fault =>
    match fault.report? with
    | some message => .reported message
    | none => .unreported fault

/-- The builder of a command line. -/
def builder (env : Environment) (store : Store) (o : Options) : Except SetupFault Builder := do
  let config ← baseConfig env store o
  (Builder.make config (overrides o)).mapError fun fault =>
    match fault with
    | .mistaken mistakes => .reported (Builder.overrideReport mistakes)
    | .badKey => .unreported .badKey

/-- The log of a command line: a verbose run shows more, unless everything is shown anyway. -/
def logSettings (o : Options) (c : LoggingConfig) : LogSettings :=
  ⟨if o.verbose && c.level != "DEBUG" then "INFO" else c.level, c.file, some c.format⟩

/-- The log that errors go to before the settings are known. -/
def plainLog : LogSettings := ⟨Level.name .warning, none, none⟩

/-- The lines that announce the files of a run. -/
def announcements (begun : List (String × Path)) : String :=
  String.join (begun.map fun e => "Compiling " ++ e.1 ++ " -> " ++ e.2.toString ++ "\n")

/-- Builds the files of a command line in a workspace whose log is set up. -/
def buildFiles (env : Environment) (b : Builder) (o : Options) (w : Workspace) : Outcome :=
  let (result, state) := (b.run env.reader o.files).run ⟨w, []⟩
  let shown := if o.verbose then announcements state.begun else ""
  match result with
  | .error failure => ⟨.error (.build failure), shown, none, state.workspace, ""⟩
  | .ok results =>
    let failed := results.countP fun r => !r.succeeded
    let workspace :=
      if failed = 0 then state.workspace
      else state.workspace.report (.summary failed results.length)
    let summed := if o.verbose then some results else none
    ⟨.ok (if failed = 0 then 0 else 1), shown, summed, workspace, ""⟩

/-- Reports why the builder cannot be set up. -/
def refuse (message : String) (w : Workspace) : Outcome :=
  let (result, w) := (Workspace.setup plainLog).run w
  match result with
  | .error e => ⟨.error (.log e), "", none, w, ""⟩
  | .ok _ => ⟨.ok 1, "", none, w.report (.refused message), ""⟩

/-- Builds what a command line names. -/
def build (env : Environment) (o : Options) (w : Workspace) : Outcome :=
  match builder env w.store o with
  | .error (.unreported fault) => ⟨.error (.config fault), "", none, w, ""⟩
  | .error (.reported message) => refuse message w
  | .ok b =>
    let (result, w) := (Workspace.setup (logSettings o b.config.logging)).run w
    match result with
    | .error e => ⟨.error (.log e), "", none, w, ""⟩
    | .ok _ => buildFiles env b o w

/-- Runs the program. -/
def run (env : Environment) (words : List String) (store : Store) : Outcome :=
  let w := Workspace.ofStore store
  match parse words with
  | .help => ⟨.ok 0, helpText, none, w, ""⟩
  | .version => ⟨.ok 0, versionText, none, w, ""⟩
  | .refuse e =>
    ⟨.ok 2, "", none, w, usageText ++ programName ++ ": error: " ++ e.message ++ "\n"⟩
  | .build o => if o.files.isEmpty then ⟨.ok 1, helpText, none, w, ""⟩ else build env o w

end TypeSuite.Cli
