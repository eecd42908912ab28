import TypeSuite.Cli.Basic

/-!
# Footprints

A run of the program depends on few places of a file system: those that its command line names and
those that the builder writes to. A store that agrees with the file system there is enough.
-/

namespace TypeSuite.Cli

/-- The paths that a command line names. -/
def namedPaths (words : List String) : List Path :=
  match parse words with
  | .build o => (o.config.toList ++ o.files).map Path.ofString
  | _ => []

/-- The paths that a builder writes to for a command line. -/
def Options.writtenPaths (o : Options) (b : Builder) : List Path :=
  b.config.logging.file.toList.map Path.ofString ++
    o.files.map fun source => b.outputPath (Path.ofString source)

/-- The paths that a run writes to, given a store with the paths that its command line names. -/
def writtenPaths (env : Environment) (words : List String) (store : Store) : List Path :=
  match parse words with
  | .build o =>
    match builder env store o with
    | .ok b => o.writtenPaths b
    | .error _ => []
  | _ => []

end TypeSuite.Cli
