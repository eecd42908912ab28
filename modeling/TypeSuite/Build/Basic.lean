import TypeSuite.Build.Failure
import TypeSuite.Compile.Basic
import TypeSuite.Config.Validate
import TypeSuite.Source.Read

/-!
# Builders

A builder turns a source into the text of a module: the source is read into a tree, the tree lowered
to nodes, the nodes compiled and the module written after a header. Every step reports what it does,
also when a later step fails.
-/

namespace TypeSuite

/-- A reader of sources: the tree of a source. A syntax error lies in the tree of a source that does
not follow the grammar. -/
abbrev SourceReader := ByteArray → Tree

/-- A step of a build: it reports events, oldest first, and keeps them when it fails. -/
abbrev Build := ExceptT Failure (StateM (List Event))

namespace Build

/-- Reports events. -/
def report (events : List Event) : Build Unit :=
  modify (· ++ events)

/-- The file that a source stands for. -/
def parse (reader : SourceReader) (source : ByteArray) (fileName : String) :
    Build SourceFile := do
  let tree := reader source
  let _ ← (tree.check fileName).mapError Failure.refused
  let file ← (tree.lower source fileName).mapError Failure.lowering
  report [.parsed fileName file.statements.length]
  return file

end Build

/-- A builder of modules. -/
structure Builder where
  /-- The settings, which are read whenever they are needed. -/
  config : Config
  /-- The module that generated code imports its checker from, as it was set when the builder was
  made. -/
  runtimeModule : String
deriving DecidableEq, Repr, Inhabited

namespace Builder

/-- A builder with a configuration. -/
def ofConfig (config : Config) : Builder :=
  ⟨config, config.compiler.runtimeModule⟩

/-- A builder with a configuration and overrides; without overrides nothing is checked. -/
def make (config : Config) (overrides : List (Value × Value)) :
    Except Config.MappingFault Builder :=
  if overrides.isEmpty then .ok (ofConfig config)
  else ofConfig <$> config.override overrides

/-- The report of overrides with mistakes in them. -/
def overrideReport (mistakes : List Mistake) : String :=
  "Invalid configuration override: " ++ Config.mistakeCount mistakes

/-- The settings of a compilation. -/
def settings {σ : Type} (b : Builder) (resolver : Resolver σ) : CompileSettings σ :=
  ⟨resolver, b.config.compiler.fallbackName, b.config.compiler.deferredWrapper⟩

/-- The text of the module of a file, without the header. -/
def compileFile {σ : Type} (b : Builder) (resolver : Resolver σ) (session : σ) (f : SourceFile) :
    Build String := do
  let (result, progress) := (Compile.file (b.settings resolver) f).run (.start session)
  Build.report progress.events
  let compiled ← result.mapError Failure.compile
  Build.report [.compiled f.fileName (compiled.manifest.map (·.name))]
  (compiled.render b.runtimeModule).mapError Failure.render

/-- The text of the module of a source. -/
def compileSource (b : Builder) (reader : SourceReader) (source : ByteArray) (fileName : String) :
    Build String := do
  let file ← Build.parse reader source fileName
  let text ← b.compileFile Resolver.declared [] file
  return b.config.output.header ++ text

/-- The path of the module that is generated for a source file. -/
def outputPath (b : Builder) (source : Path) : Path :=
  let output := b.config.output
  let directory := match output.outDir with
    | none => source.parent
    | some dir => if dir.isEmpty then source.parent else .ofString dir
  directory.join (.ofString (source.stem ++ output.suffix ++ output.extension))

end Builder

end TypeSuite
