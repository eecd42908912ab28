import TypeSuite.Cli.Footprint
import TypeSuite.Source.Read
import TypeSuite.Yaml.Decode

/-!
# The command line program

The outer layer: it copies what a run depends on into a store, runs the program there, and writes
back what has changed.
-/

namespace TypeSuite.Cli

/-- The name of a place in the file system. -/
def systemName (l : Location) : String :=
  "/" ++ "/".intercalate l

/-- What is at a place of the file system; nothing when it cannot be read. -/
def look (l : Location) : IO (Option Entry) := do
  try
    return some (.file (← IO.FS.readBinFile (systemName l)))
  catch
    | .inappropriateType _ code _ =>
      if FileFault.isDirectory.description?.any fun d => d.1 == code.toNat then
        return some .directory
      else return none
    | _ => return none

/-- A store with all that paths lead through in the file system. -/
def snapshot (home : Location) (paths : List Path) : IO Store := do
  let places := (paths.flatMap (Store.placesOf home)).eraseDups
  let entries ← places.filterMapM fun l => return (← look l).map fun entry => (l, entry)
  return ⟨entries, home⟩

/-- Brings what has changed in a store into the file system. -/
def writeBack (after before : Store) : IO Unit := do
  for l in after.newDirectories before do
    IO.FS.createDir (systemName l)
  for (l, content) in after.changedFiles before do
    IO.FS.writeBinFile (systemName l) content

/-- The text of a time, in seconds with two places. -/
def secondsText (milliseconds : Nat) : String :=
  let hundredths := (milliseconds + 5) / 10
  let places := hundredths % 100
  toString (hundredths / 100) ++ "." ++ (if places < 10 then "0" else "") ++ toString places

end TypeSuite.Cli

open TypeSuite in
/-- Runs the program in the directory that it is started from. -/
def main (words : List String) : IO UInt32 := do
  let env : Cli.Environment := ⟨Source.read, Yaml.decode⟩
  let home := (Path.ofString (toString (← IO.currentDir))).parts
  let named := Cli.namedPaths words
  let before ← Cli.snapshot home named
  let before ← Cli.snapshot home (named ++ Cli.writtenPaths env words before)
  let start ← IO.monoMsNow
  let outcome := Cli.run env words before
  Cli.writeBack outcome.workspace.store before
  let stop ← IO.monoMsNow
  IO.print (outcome.output (Cli.secondsText (stop - start)))
  IO.eprint outcome.errorOutput
  match outcome.result with
  | .ok code => return code.toUInt32
  | .error _ =>
    IO.eprintln (Cli.programName ++ ": the run was broken off")
    return 1
