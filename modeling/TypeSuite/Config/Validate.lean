import TypeSuite.Config.Basic
import TypeSuite.Text.Blank
import TypeSuite.Text.Upper

/-!
# Validation

A configuration is read from a value with all its mistakes reported at once: those of the settings
in the order of the sections and their fields, then the unexpected keys in the order of the input.
-/

namespace TypeSuite

/-- What is wrong with a place of a configuration. -/
inductive Issue where
  /-- A setting is no text. -/
  | notText
  /-- A section is no mapping. -/
  | notSection (s : Section)
  /-- A key at the top that is no section. -/
  | unexpected
  /-- A text that the setting does not allow, with the reason where one is given. -/
  | refused (reason : Option String)
  /-- An attribute that the configuration does not have. -/
  | noAttribute (name : String)
deriving DecidableEq, Repr

namespace Issue

/-- The code of an issue. -/
def code : Issue → String
  | .notText => "string_type"
  | .notSection _ => "model_type"
  | .unexpected => "extra_forbidden"
  | .refused _ => "value_error"
  | .noAttribute _ => "no_such_attribute"

/-- The report of an issue. -/
def message : Issue → Option String
  | .notText => some "Input should be a valid string"
  | .notSection s =>
    some ("Input should be a valid dictionary or instance of " ++ s.typeName)
  | .unexpected => some "Extra inputs are not permitted"
  | .refused reason => reason.map ("Value error, " ++ ·)
  | .noAttribute name => some ("Object has no attribute '" ++ name ++ "'")

end Issue

/-- An issue with the path of the place it lies at. -/
structure Mistake where
  path : List String
  issue : Issue
deriving DecidableEq, Repr

/-- The level names that a configuration may give. -/
def allowedLevels : List String := ["DEBUG", "INFO", "WARNING", "ERROR", "CRITICAL"]

namespace Field

/-- The text that a setting takes when it is given one. -/
def check (f : Field) (text : String) : Except Issue String :=
  match f with
  | .suffix =>
    if text.toList.any (fun c => c == '/' || c == '\\') then
      .error (.refused (some ("suffix must not contain path separators, got: " ++ text)))
    else .ok text
  | .extension =>
    match text.toList with
    | '.' :: _ :: _ => .ok text
    | _ => .error (.refused (some ("extension must start with '.', got: " ++ text)))
  | .deferredWrapper | .fallbackName | .runtimeModule =>
    if Text.isBlankText text then .error (.refused (some "value must not be blank"))
    else .ok text
  | .level =>
    let level := Text.upper text
    if allowedLevels.contains level then .ok level else .error (.refused none)
  | .outDir | .header | .format | .file => .ok text

/-- The content that a setting takes when it is given a value. -/
def accept (f : Field) : Value → Except Issue (Option String)
  | .text text => some <$> f.check text
  | .null => if f.isOptional then .ok none else .error .notText
  | _ => .error .notText

end Field

namespace Config

/-- A configuration with the mistakes met while it was read. -/
structure Draft where
  config : Config
  mistakes : List Mistake

/-- Reads a setting from the entries of its section. An absent one stays as it is. -/
def readField (s : Section) (entries : List (Value × Value)) (draft : Draft) (f : Field) : Draft :=
  match Value.find? entries f.name with
  | none => draft
  | some value =>
    match f.accept value with
    | .ok content => { draft with config := draft.config.set f content }
    | .error issue =>
      { draft with mistakes := draft.mistakes ++ [⟨[s.name, f.name], issue⟩] }

/-- Reads a section over its current settings. Unknown keys in it are ignored. -/
def readSection (draft : Draft) (s : Section) (value : Value) : Draft :=
  match value with
  | .map entries => s.fields.foldl (readField s entries) draft
  | _ => { draft with mistakes := draft.mistakes ++ [⟨[s.name], .notSection s⟩] }

/-- Reads the sections that a value has, over the defaults. -/
def readSections (entries : List (Value × Value)) : Draft :=
  Section.all.foldl (fun draft s =>
    match Value.find? entries s.name with
    | none => draft
    | some value => readSection draft s value) ⟨{}, []⟩

/-- The mistakes of keys that are no sections. -/
def unexpectedKeys (entries : List (Value × Value)) : List Mistake :=
  entries.filterMap fun e =>
    e.1.text?.bind fun key =>
      if (Section.ofName? key).isSome then none else some ⟨[key], .unexpected⟩

/-- The configuration of a mapping, or all the mistakes in it. -/
def ofEntries (entries : List (Value × Value)) : Except (List Mistake) Config :=
  let draft := readSections entries
  match draft.mistakes ++ unexpectedKeys entries with
  | [] => .ok draft.config
  | mistakes => .error mistakes

/-- Why a mapping of a data format gives no configuration. -/
inductive MappingFault where
  | mistaken (mistakes : List Mistake)
  /-- A key at the top is no text. Nothing else in the mapping is looked at then. -/
  | badKey
deriving DecidableEq, Repr

/-- The configuration of a mapping of a data format, where anything may be a key. -/
def ofMapping (entries : List (Value × Value)) : Except MappingFault Config :=
  if entries.all fun e => e.1.text?.isSome then (ofEntries entries).mapError .mistaken
  else .error .badKey

/-- The first line of a report of mistakes. -/
def mistakeCount (mistakes : List Mistake) : String :=
  toString mistakes.length ++ " validation error" ++ (if mistakes.length == 1 then "" else "s") ++
    " for BuilderConfig"

/-- Lays overrides over a configuration and reads the result anew. -/
def override (c : Config) (overrides : List (Value × Value)) : Except MappingFault Config :=
  ofMapping (Value.overlayEntries overrides c.partEntries)

end Config

end TypeSuite
