import TypeSuite.Config.Value

/-!
# Configuration

The settings of a build in their three sections. Every setting has a default.
-/

namespace TypeSuite

/-- Settings of the generated files. -/
structure OutputConfig where
  /-- Appended to the base name of each generated file. -/
  suffix : String := "-ti"
  /-- The extension of generated files. -/
  extension : String := ".ts"
  /-- The directory of the generated files; that of the source file when unset. -/
  outDir : Option String := none
  /-- Put in front of every generated module. -/
  header : String :=
    "/**\n * This module was automatically generated by \x60ts-interface-builder\x60\n */\n"
deriving DecidableEq, Repr, Inhabited

/-- Settings of the compiler. -/
structure CompilerConfig where
  /-- The generic type that stands for its single argument. -/
  deferredWrapper : String := "Promise"
  /-- The name of a declaration whose own name cannot be resolved. -/
  fallbackName : String := "unknown"
  /-- The module that the generated code imports its checker from. -/
  runtimeModule : String := "ts-interface-checker"
deriving DecidableEq, Repr, Inhabited

/-- Settings of the log. -/
structure LoggingConfig where
  /-- The least level that is written. -/
  level : String := "WARNING"
  /-- The form of a log line. -/
  format : String := "%(levelname)s %(name)s: %(message)s"
  /-- The file that the log goes to besides the error stream. -/
  file : Option String := none
deriving DecidableEq, Repr, Inhabited

/-- The settings of a build. -/
structure Config where
  output : OutputConfig := {}
  compiler : CompilerConfig := {}
  logging : LoggingConfig := {}
deriving DecidableEq, Repr, Inhabited

/-- A section of the configuration. -/
inductive Section where
  | output | compiler | logging
deriving DecidableEq, Repr, Inhabited

/-- A single setting. -/
inductive Field where
  | suffix | extension | outDir | header
  | deferredWrapper | fallbackName | runtimeModule
  | level | format | file
deriving DecidableEq, Repr, Inhabited

namespace Section

/-- The sections in order. -/
def all : List Section := [.output, .compiler, .logging]

/-- The name of a section in a configuration file. -/
def name : Section → String
  | .output => "output"
  | .compiler => "compiler"
  | .logging => "logging"

/-- The name of a section's type in reports. -/
def typeName : Section → String
  | .output => "OutputConfig"
  | .compiler => "CompilerConfig"
  | .logging => "LoggingConfig"

/-- The settings of a section in order. -/
def fields : Section → List Field
  | .output => [.suffix, .extension, .outDir, .header]
  | .compiler => [.deferredWrapper, .fallbackName, .runtimeModule]
  | .logging => [.level, .format, .file]

/-- The section of a name. -/
def ofName? (name : String) : Option Section :=
  all.find? (·.name == name)

end Section

namespace Field

/-- The name of a setting in a configuration file. -/
def name : Field → String
  | .suffix => "suffix"
  | .extension => "extension"
  | .outDir => "out_dir"
  | .header => "header"
  | .deferredWrapper => "deferred_wrapper"
  | .fallbackName => "fallback_name"
  | .runtimeModule => "runtime_module"
  | .level => "level"
  | .format => "format"
  | .file => "file"

/-- The section that a setting is in. -/
def sectionOf : Field → Section
  | .suffix | .extension | .outDir | .header => .output
  | .deferredWrapper | .fallbackName | .runtimeModule => .compiler
  | .level | .format | .file => .logging

/-- Whether a setting may be unset. -/
def isOptional : Field → Bool
  | .outDir => true
  | .file => true
  | _ => false

end Field

/-- The settings in order. -/
def Field.all : List Field := Section.all.flatMap Section.fields

/-- The setting of a section with a given name. -/
def Section.field? (s : Section) (name : String) : Option Field :=
  s.fields.find? (·.name == name)

namespace Config

/-- The value of a setting; `none` when it is unset. -/
def get (c : Config) : Field → Option String
  | .suffix => some c.output.suffix
  | .extension => some c.output.extension
  | .outDir => c.output.outDir
  | .header => some c.output.header
  | .deferredWrapper => some c.compiler.deferredWrapper
  | .fallbackName => some c.compiler.fallbackName
  | .runtimeModule => some c.compiler.runtimeModule
  | .level => some c.logging.level
  | .format => some c.logging.format
  | .file => c.logging.file

/-- Changes a setting without any check. A setting that cannot be unset stays as it is when the
new value is absent. -/
def set (c : Config) (f : Field) (value : Option String) : Config :=
  match f with
  | .suffix => { c with output.suffix := value.getD c.output.suffix }
  | .extension => { c with output.extension := value.getD c.output.extension }
  | .outDir => { c with output.outDir := value }
  | .header => { c with output.header := value.getD c.output.header }
  | .deferredWrapper => { c with compiler.deferredWrapper := value.getD c.compiler.deferredWrapper }
  | .fallbackName => { c with compiler.fallbackName := value.getD c.compiler.fallbackName }
  | .runtimeModule => { c with compiler.runtimeModule := value.getD c.compiler.runtimeModule }
  | .level => { c with logging.level := value.getD c.logging.level }
  | .format => { c with logging.format := value.getD c.logging.format }
  | .file => { c with logging.file := value }

/-- The entries of a section. -/
def sectionEntries (c : Config) (s : Section) : List (String × Option String) :=
  s.fields.map fun f => (f.name, c.get f)

/-- A setting as a value. -/
def settingValue : Option String → Value
  | some s => .text s
  | none => .null

/-- The entries of a section as those of a value, in which unset settings are null. -/
def fieldEntries (c : Config) (s : Section) : List (Value × Value) :=
  (c.sectionEntries s).map fun e => (.text e.1, settingValue e.2)

/-- The entries of a configuration: each section under its name. -/
def partEntries (c : Config) : List (Value × Value) :=
  Section.all.map fun s => (.text s.name, .map (c.fieldEntries s))

/-- A configuration as a value. -/
def toValue (c : Config) : Value :=
  .map c.partEntries

end Config

end TypeSuite
