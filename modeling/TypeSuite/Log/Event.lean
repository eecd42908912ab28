import TypeSuite.Text.Display

/-!
# Events

What the compiler and the build report while they work, and how each report reads.
-/

namespace TypeSuite

/-- How much a report matters, from the least to the most. -/
inductive Level where
  | debug | info | warning | error | critical
deriving DecidableEq, Repr, Inhabited

namespace Level

/-- The levels from the least to the most. -/
def all : List Level := [.debug, .info, .warning, .error, .critical]

/-- The name of a level. -/
def name : Level → String
  | .debug => "DEBUG"
  | .info => "INFO"
  | .warning => "WARNING"
  | .error => "ERROR"
  | .critical => "CRITICAL"

/-- The weight of a level. -/
def weight : Level → Nat
  | .debug => 10
  | .info => 20
  | .warning => 30
  | .error => 40
  | .critical => 50

/-- The level of a name. -/
def ofName? (name : String) : Option Level :=
  all.find? (·.name == name)

end Level

/-- A report of the compiler or the build. -/
inductive Event where
  /-- A statement without a rule was passed over. -/
  | skipped (kind fileName : String)
  /-- A node declares no name and goes by the fallback. -/
  | unresolved (kind text fallback : String)
  /-- A source file was read. -/
  | parsed (fileName : String) (statements : Nat)
  /-- A source file was compiled. -/
  | compiled (fileName : String) (names : List String)
  /-- A file is about to be built. -/
  | building (source output : String)
  /-- A file could not be built. -/
  | failed (source message : String)
  /-- Some files of a build failed. -/
  | summary (failed total : Nat)
  /-- A build could not be set up. -/
  | refused (message : String)
deriving DecidableEq, Repr

namespace Event

/-- How much an event matters. -/
def level : Event → Level
  | .failed _ _ | .summary _ _ | .refused _ => .error
  | _ => .debug

/-- The name of the part of the program that reports an event. -/
def origin : Event → String
  | .skipped .. => "ts_interface_builder.core.node_compiler"
  | .unresolved .. => "ts_interface_builder.core.symbol_resolver"
  | .parsed .. => "ts_interface_builder.parsers.typescript_parser.TypeScriptParser"
  | .compiled _ _ | .building _ _ | .failed _ _ =>
    "ts_interface_builder.core.pipeline.InterfaceBuilder"
  | .summary _ _ | .refused _ => "ts_interface_builder.cli"

/-- The report of an event. -/
def message : Event → String
  | .skipped kind fileName => "Skipping top-level " ++ kind ++ " in " ++ fileName
  | .unresolved kind text fallback =>
    "No symbol for " ++ kind ++ " " ++ Text.display text ++ ", using " ++ Text.display fallback
  | .parsed fileName statements =>
    "Parsed " ++ fileName ++ ": " ++ toString statements ++ " statements"
  | .compiled fileName names =>
    let exported := ", ".intercalate names
    "Compiled " ++ fileName ++ ": exports " ++ (if exported.isEmpty then "nothing" else exported)
  | .building source output => "Compiling " ++ source ++ " -> " ++ output
  | .failed source text => "Failed to compile " ++ source ++ ": " ++ text
  | .summary bad total =>
    toString bad ++ " of " ++ toString total ++ " files failed to compile"
  | .refused text => text

end Event

end TypeSuite
