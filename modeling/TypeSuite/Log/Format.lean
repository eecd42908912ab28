import TypeSuite.Log.Event

/-!
# Log formats

A log format is a text with fields in it, such as a name in brackets behind a percent sign, with
the width that the field is padded to and the letter that ends it. A doubled percent sign stands
for itself.
-/

namespace TypeSuite

/-- A report as it reaches the log. -/
structure LogRecord where
  level : Level
  /-- The name of the part of the program that it comes from. -/
  origin : String
  text : String
deriving DecidableEq, Repr

/-- The record of an event. -/
def Event.toRecord (e : Event) : LogRecord :=
  ⟨e.level, e.origin, e.message⟩

/-- The field of a record that a name stands for. -/
def LogRecord.field? (r : LogRecord) (name : String) : Option String :=
  if name == "levelname" then some r.level.name
  else if name == "name" then some r.origin
  else if name == "message" then some r.text
  else none

namespace LogFormat

/-- How a field is laid out. -/
structure Layout where
  /-- Whether the padding follows the field. -/
  padAfter : Bool
  width : Nat
  /-- The most characters that are kept. -/
  limit : Option Nat

/-- A field's text, laid out. -/
def Layout.apply (l : Layout) (text : List Char) : List Char :=
  let kept := match l.limit with
    | some limit => text.take limit
    | none => text
  let padding := List.replicate (l.width - kept.length) ' '
  if l.padAfter then kept ++ padding else padding ++ kept

/-- Where the reading of a format stands. -/
inductive Stage where
  /-- Between fields. -/
  | outside
  /-- Behind a percent sign. -/
  | percent
  /-- In the name of a field, within a number of open brackets; the name so far is reversed. -/
  | name (depth : Nat) (name : List Char)
  /-- In the layout of a field. -/
  | flags (name : String) (padAfter : Bool)
  | width (name : String) (padAfter : Bool) (width : Nat)
  | limit (name : String) (padAfter : Bool) (width limit : Nat)

/-- The text of a field that ends with the given letter. -/
def finish (r : LogRecord) (name : String) (l : Layout) (letter : Char) : Option (List Char) :=
  if letter = '%' then some ['%']
  else if letter = 's' then (r.field? name).map fun text => l.apply text.toList
  else none

/-- The text that a format gives from a stage on; `none` when the format is broken. -/
def fill (r : LogRecord) : Stage → List Char → Option (List Char)
  | .outside, [] => some []
  | _, [] => none
  | .outside, c :: rest =>
    if c = '%' then fill r .percent rest else (c :: ·) <$> fill r .outside rest
  | .percent, c :: rest =>
    if c = '(' then fill r (.name 1 []) rest
    else if c = '%' then ('%' :: ·) <$> fill r .outside rest
    else none
  | .name depth name, c :: rest =>
    if c = ')' then
      if depth ≤ 1 then fill r (.flags (String.ofList name.reverse) false) rest
      else fill r (.name (depth - 1) (c :: name)) rest
    else fill r (.name (if c = '(' then depth + 1 else depth) (c :: name)) rest
  | .flags name padAfter, c :: rest =>
    if c = '-' then fill r (.flags name true) rest
    else if c = '0' || c = '+' || c = '#' || c = ' ' then fill r (.flags name padAfter) rest
    else if c.isDigit then fill r (.width name padAfter (c.toNat - 48)) rest
    else if c = '.' then fill r (.limit name padAfter 0 0) rest
    else do
      let text ← finish r name ⟨padAfter, 0, none⟩ c
      return text ++ (← fill r .outside rest)
  | .width name padAfter width, c :: rest =>
    if c.isDigit then fill r (.width name padAfter (10 * width + (c.toNat - 48))) rest
    else if c = '.' then fill r (.limit name padAfter width 0) rest
    else do
      let text ← finish r name ⟨padAfter, width, none⟩ c
      return text ++ (← fill r .outside rest)
  | .limit name padAfter width limit, c :: rest =>
    if c.isDigit then fill r (.limit name padAfter width (10 * limit + (c.toNat - 48))) rest
    else do
      let text ← finish r name ⟨padAfter, width, some limit⟩ c
      return text ++ (← fill r .outside rest)

/-- The line that a format gives for a record, without its end. -/
def render (format : String) (r : LogRecord) : Option String :=
  (fill r .outside format.toList).map String.ofList

/-- Whether a character may stand in the name of a field. -/
def isNameChar (c : Char) : Bool :=
  c.isAlphanum || c = '_' || 0x7f < c.toNat

/-- Drops a star or a run of digits. -/
def dropCount : List Char → List Char
  | '*' :: rest => rest
  | rest => rest.dropWhile Char.isDigit

/-- The letters that may end a field. -/
def fieldLetters : List Char :=
  "diouxefgcrsa%".toList

/-- Whether a field begins right here. -/
def startsField (format : List Char) : Bool :=
  match format with
  | '%' :: '(' :: rest =>
    match rest.dropWhile isNameChar with
    | ')' :: spec =>
      let spec := dropCount (spec.dropWhile fun c => "#0+ -".toList.contains c)
      let spec := match spec with
        | '.' :: more => dropCount more
        | spec => spec
      (rest.head?.any isNameChar) && (spec.head?.any fun c => fieldLetters.contains c.toLower)
    | _ => false
  | _ => false

/-- Whether a field begins anywhere in a format; a format without fields is refused. -/
def hasField : List Char → Bool
  | [] => false
  | c :: rest => startsField (c :: rest) || hasField rest

end LogFormat

end TypeSuite
