import TypeSuite.Config.Basic
import TypeSuite.Log.Format
import TypeSuite.Store.Basic
import TypeSuite.Text.Upper

/-!
# The log

Reports reach a console, and a file as well if there is one, once a log is set up. A later setup
replaces the console and the file of the one before.
-/

namespace TypeSuite

/-- Where reports go. -/
structure Channel where
  format : String
  /-- The number of the console among all consoles so far. -/
  console : Nat
  file : Option Path
deriving Repr

/-- A log: what counts as worth writing, and where that goes. -/
structure Log where
  /-- The least weight that is written; nothing is set at zero. -/
  threshold : Nat
  /-- What every console has shown, the oldest console first. -/
  consoles : List String
  channel : Option Channel
deriving Repr

/-- How a log is to be set up. -/
structure LogSettings where
  level : String
  file : Option String
  format : Option String
deriving Repr

/-- Why a log cannot be set up. -/
inductive LogError where
  | unknownLevel
  | badFormat
  | file (e : FileError)
deriving DecidableEq, Repr

/-- A store of files and the log that is kept of the work on it. -/
structure Workspace where
  store : Store
  log : Log

namespace Log

/-- The log before any setup, which writes nothing. -/
def silent : Log := ⟨0, [], none⟩

/-- The name that the origins of all reports of the program begin with. -/
def packageName : String := "ts_interface_builder"

/-- The threshold where none is set. -/
def defaultThreshold : Nat := Level.weight .warning

/-- The format where none is set. -/
def defaultFormat : String := ({} : LoggingConfig).format

/-- The threshold of a level's name; some levels go by two names. -/
def threshold? (name : String) : Option Nat :=
  match Level.ofName? name with
  | some level => some level.weight
  | none =>
    if name == "WARN" then some (Level.weight .warning)
    else if name == "FATAL" then some (Level.weight .critical)
    else if name == "NOTSET" then some 0
    else none

/-- Whether reports of an origin belong to the program. -/
def covers (origin : String) : Bool :=
  origin == packageName || (packageName ++ ".").toList.isPrefixOf origin.toList

/-- Whether a record is written. -/
def admits (log : Log) (r : LogRecord) : Bool :=
  let threshold := if log.threshold = 0 then defaultThreshold else log.threshold
  covers r.origin && threshold ≤ r.level.weight

/-- Adds a line to a console. -/
def showOn (log : Log) (console : Nat) (line : String) : Log :=
  { log with consoles := log.consoles.modify console (· ++ line) }

end Log

namespace Workspace

/-- A workspace over a store, with nothing logged so far. -/
def ofStore (store : Store) : Workspace := ⟨store, .silent⟩

/-- Writes a record to the log. -/
def write (record : LogRecord) (w : Workspace) : Workspace :=
  match w.log.channel with
  | none => w
  | some channel =>
    if w.log.admits record then
      match LogFormat.render channel.format record with
      | none => w
      | some text =>
        let line := text ++ "\n"
        let store := match channel.file with
          | none => w.store
          | some path =>
            match w.store.append path line.toUTF8 with
            | .ok store => store
            | .error _ => w.store
        ⟨store, w.log.showOn channel.console line⟩
    else w

/-- Reports an event to the log. -/
def report (e : Event) (w : Workspace) : Workspace :=
  w.write e.toRecord

/-- Work on the store of a workspace. -/
def onStore {α : Type} (work : StoreWork α) : ExceptT FileError (StateM Workspace) α :=
  ExceptT.mk do
    let w ← get
    let (result, store) := work.run w.store
    set { w with store }
    return result

/-- Sends the log to the last console from now on, and to a file. -/
def connect (format : String) (file : Option Path) : StateM Workspace Unit :=
  modify fun w => { w with log.channel := some ⟨format, w.log.consoles.length - 1, file⟩ }

/-- Sets up the log with a new console and gives the threshold. Nothing but the console is new when
the level is unknown; after that the old channel is closed whatever happens. -/
def setup (settings : LogSettings) : ExceptT LogError (StateM Workspace) Nat := do
  modify fun w => { w with log.consoles := w.log.consoles ++ [""] }
  match Log.threshold? (Text.upper settings.level) with
  | none => throw .unknownLevel
  | some threshold =>
    modify fun w => { w with log.threshold := threshold, log.channel := none }
    let format := match settings.format with
      | some text => if text.isEmpty then Log.defaultFormat else text
      | none => Log.defaultFormat
    unless LogFormat.hasField format.toList do throw .badFormat
    connect format none
    match settings.file with
    | none => return threshold
    | some name =>
      if name.isEmpty then return threshold
      let path := Path.ofString name
      (onStore (StoreWork.openWithParents path)).adapt LogError.file
      connect format (some path)
      return threshold

end Workspace

end TypeSuite
