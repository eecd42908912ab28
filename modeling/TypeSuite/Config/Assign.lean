import TypeSuite.Config.Validate

/-!
# Assignment

A configuration may be changed after it was made. A whole section is checked before it is replaced;
a single setting is replaced as it is, so that it may hold any value afterwards.
-/

namespace TypeSuite

namespace Config

/-- Why an assignment is refused. -/
inductive AssignError where
  /-- The new section has mistakes in it. -/
  | mistaken (mistakes : List Mistake)
  /-- The section has no such setting. -/
  | noField (s : Section) (name : String)
  /-- Nothing of this name holds settings. -/
  | noSection (name : String)
deriving DecidableEq, Repr

/-- The report of a setting that a section does not have. -/
def AssignError.message? : AssignError → Option String
  | .noField s name =>
    some ("\"" ++ s.typeName ++ "\" object has no field \"" ++ name ++ "\"")
  | _ => none

end Config

/-- The settings of a configuration that may be changed, each with the value it holds. -/
structure Settings where
  value : Field → Value

/-- A change of settings, which keeps what was done before it fails. -/
abbrev Assigning := ExceptT Config.AssignError (StateM Settings)

namespace Settings

/-- The settings of a configuration. -/
def ofConfig (c : Config) : Settings :=
  ⟨fun f => Config.settingValue (c.get f)⟩

/-- What a setting holds when it holds a text, or nothing where that is allowed. -/
def content? (s : Settings) (f : Field) : Option (Option String) :=
  match s.value f with
  | .text text => some (some text)
  | .null => if f.isOptional then some none else none
  | _ => none

/-- The configuration that has these settings. There is none when a setting holds no text. -/
def config? (s : Settings) : Option Config :=
  Field.all.foldlM (fun c f => (s.content? f).map (c.set f)) {}

/-- Settings of which one holds another value. -/
def set (s : Settings) (f : Field) (value : Value) : Settings :=
  ⟨fun g => if g = f then value else s.value g⟩

/-- Settings of which one section is that of a configuration. -/
def replace (s : Settings) (part : Section) (c : Config) : Settings :=
  ⟨fun f => if f.sectionOf = part then Config.settingValue (c.get f) else s.value f⟩

/-- Replaces a section as a whole, with the defaults for what is not given. -/
def assignSection (part : Section) (value : Value) : Assigning Unit := do
  let draft := Config.readSection ⟨{}, []⟩ part value
  match draft.mistakes with
  | [] => modify (·.replace part draft.config)
  | mistakes => throw (.mistaken mistakes)

/-- Assigns to the place that names lead to. What is assigned is data: a section is given by a
mapping of its settings, never as a section that has been made already. -/
def assign (names : List String) (value : Value) : Assigning Unit :=
  match names with
  | [name] =>
    match Section.ofName? name with
    | some part => assignSection part value
    | none => throw (.mistaken [⟨[name], .noAttribute name⟩])
  | [name, field] =>
    match Section.ofName? name with
    | none => throw (.noSection name)
    | some part =>
      match part.field? field with
      | none => throw (.noField part field)
      | some f => modify (·.set f value)
  | names => throw (.noSection (".".intercalate names))

end Settings

/-- Assigns to a place of a configuration. No configuration holds a value that is no text, so one
that is assigned where a text has to be is left out. -/
def Config.assign (c : Config) (names : List String) (value : Value) :
    Except AssignError Config :=
  let (result, settings) := (Settings.assign names value).run (.ofConfig c)
  result.map fun _ => settings.config?.getD c

end TypeSuite
