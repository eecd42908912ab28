import TypeSuite.Config.Validate
import TypeSuite.Store.Basic

/-!
# Configuration files

A configuration is read from a file in some data format and written back to one. Settings that are
unset are left out of the file.
-/

namespace TypeSuite

/-- Why a text has no value in a data format. -/
inductive DecodeError where
  /-- The text does not follow the format. -/
  | badSyntax
  /-- A scalar is spelled like a value that there is none of, such as a date. -/
  | noValue
deriving DecidableEq, Repr

/-- Why a configuration file gives no configuration. -/
inductive ConfigFault where
  | notFound (given : String)
  | badSyntax
  /-- The file holds something else than a mapping. -/
  | notMapping (given : String)
  | mistaken (mistakes : List Mistake)
  /-- The file cannot be read. -/
  | unreadable (e : FileError)
  /-- The file is not UTF-8. -/
  | notText
  /-- A scalar of the file has no value. -/
  | noValue
  /-- A key at the top is no text. -/
  | badKey
deriving DecidableEq, Repr

/-- The fault of a file that holds a mapping which gives no configuration. -/
def ConfigFault.ofMapping : Config.MappingFault → ConfigFault
  | .mistaken mistakes => .mistaken mistakes
  | .badKey => .badKey

/-- The report of a fault, where there is one. -/
def ConfigFault.report? : ConfigFault → Option String
  | .notFound given => some ("Configuration file not found: " ++ given)
  | .badSyntax => some "Failed to parse YAML configuration"
  | .notMapping given => some ("Configuration root must be a mapping: " ++ given)
  | .mistaken mistakes => some ("Invalid configuration: " ++ Config.mistakeCount mistakes)
  | .unreadable _ => none
  | .notText => none
  | .noValue => none
  | .badKey => none

namespace Config

/-- The configuration of a value; nothing at all stands for the defaults. -/
def ofValue (given : String) : Value → Except ConfigFault Config
  | .null => .ok {}
  | .map entries => (ofMapping entries).mapError .ofMapping
  | _ => .error (.notMapping given)

/-- The content of a configuration file. -/
def readFile (store : Store) (given : String) : Except ConfigFault ByteArray :=
  let path := Path.ofString given
  match store.find path with
  | .ok (.file content) => .ok content
  | .ok .directory => .error (.unreadable ⟨.isDirectory, path⟩)
  | .error .nameTooLong => .error (.unreadable ⟨.nameTooLong, path⟩)
  | .error _ => .error (.notFound given)

/-- Reads a configuration from a file, given how a text is decoded. -/
def load (decode : String → Except DecodeError Value) (store : Store) (given : String) :
    Except ConfigFault Config := do
  let content ← readFile store given
  match String.fromUTF8? content with
  | none => throw .notText
  | some text =>
    match decode text with
    | .error .badSyntax => throw .badSyntax
    | .error .noValue => throw .noValue
    | .ok value => ofValue given value

/-- The settings that are set, section by section. -/
def setEntries (c : Config) : List (String × List (String × String)) :=
  Section.all.map fun s =>
    (s.name, (c.sectionEntries s).filterMap fun e => e.2.map fun value => (e.1, value))

/-- Writes a configuration to a file, given how its entries are encoded. -/
def save (encode : List (String × List (String × String)) → String) (c : Config)
    (given : String) : StoreWork Unit :=
  StoreWork.writeWithParents (Path.ofString given) (encode c.setEntries).toUTF8

end Config

end TypeSuite
