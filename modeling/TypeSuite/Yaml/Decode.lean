import TypeSuite.Config.File
import TypeSuite.Yaml.Node
import TypeSuite.Yaml.Plain

/-!
# From nodes to values

A tag says what a node is; without one, the spelling of a plain scalar does. Only texts, nulls and
truth values are told apart from all other scalars, because a configuration takes nothing else.
-/

namespace TypeSuite.Yaml

/-- The name of a standard tag. -/
def standardTag? (tag : String) : Option String :=
  let start := "tag:yaml.org,2002:".toList
  if start.isPrefixOf tag.toList then some (String.ofList (tag.toList.drop start.length)) else none

/-- The value of a scalar without a tag. -/
def plainValue (text : String) : Except DecodeError Value :=
  match Plain.sortOf text with
  | .null => .ok .null
  | .bool value => .ok (.bool value)
  | .float => .ok (.scalar text)
  | .int => if Plain.hasDigits text.toList then .ok (.scalar text) else .error .noValue
  | .date =>
    if (Plain.date? text.toList).any (·.isReal) then .ok (.scalar text) else .error .noValue
  | .merge | .equals => .error .badSyntax
  | .text => .ok (.text text)

/-- The value of a scalar under a standard tag. -/
def taggedValue (tag text : String) : Except DecodeError Value :=
  if tag == "str" then .ok (.text text)
  else if tag == "null" then .ok .null
  else if tag == "bool" then
    match Plain.bool? text.toLower with
    | some value => .ok (.bool value)
    | none => .error .noValue
  else if tag == "int" then
    if Plain.isInt text.toList && Plain.hasDigits text.toList then .ok (.scalar text)
    else .error .noValue
  else if tag == "float" then
    if Plain.isFloat text.toList || Plain.isInt text.toList then .ok (.scalar text)
    else .error .noValue
  else if tag == "timestamp" then
    if (Plain.date? text.toList).any (·.isReal) then .ok (.scalar text) else .error .noValue
  else if tag == "binary" then .ok (.scalar text)
  else .error .badSyntax

/-- The value of a scalar. -/
def scalarValue (tag : Option String) (text : String) (plain : Bool) :
    Except DecodeError Value :=
  match tag with
  | some tag =>
    match standardTag? tag with
    | some name => taggedValue name text
    | none => .error .badSyntax
  | none => if plain then plainValue text else .ok (.text text)

/-- Whether a collection may have a tag: none at all, or a given standard one. -/
def allowsTag (names : List String) (tag : Option String) : Bool :=
  match tag with
  | none => true
  | some tag => (standardTag? tag).any names.contains

/-- Whether a node is the key of entries that are taken from other mappings. -/
def Node.isMergeKey : Node → Bool
  | .scalar none text true => text == "<<"
  | .scalar (some tag) _ _ => tag == "tag:yaml.org,2002:merge"
  | _ => false

/-- Whether a value may be a key. -/
def isKey : Value → Bool
  | .list _ | .map _ => false
  | _ => true

/-- Puts an entry into a mapping: in the place of an entry of the same text, or at the end. -/
def putEntry (entries : List (Value × Value)) (e : Value × Value) : List (Value × Value) :=
  match e.1 with
  | .text key => Value.put key e.2 entries
  | _ => entries ++ [e]

mutual
/-- The value of a node. -/
def Node.toValue : Node → Except DecodeError Value
  | .scalar tag text plain => scalarValue tag text plain
  | .sequence tag items => do
    unless allowsTag ["seq", "omap", "pairs"] tag do throw .badSyntax
    return .list (← toValues items)
  | .mapping tag entries => do
    unless allowsTag ["map", "set"] tag do throw .badSyntax
    let (merged, own) ← toEntries entries
    return .map ((merged ++ own).foldl putEntry [])

/-- The values of nodes. -/
def toValues : List Node → Except DecodeError (List Value)
  | [] => .ok []
  | n :: rest => do
    let value ← n.toValue
    return value :: (← toValues rest)

/-- The entries that a mapping takes from others, and its own. -/
def toEntries : List (Node × Node) →
    Except DecodeError (List (Value × Value) × List (Value × Value))
  | [] => .ok ([], [])
  | (k, v) :: rest => do
    if k.isMergeKey then
      let taken ← toMerged v
      let (merged, own) ← toEntries rest
      return (taken ++ merged, own)
    else
      let key ← match k with
        | .scalar none "=" true => .ok (.text "=")
        | k => k.toValue
      unless isKey key do throw .badSyntax
      let value ← v.toValue
      let (merged, own) ← toEntries rest
      return (merged, (key, value) :: own)

/-- The entries that a node gives to a mapping: those of a mapping, or of several, in which the
first ones count. -/
def toMerged : Node → Except DecodeError (List (Value × Value))
  | .mapping _ entries => do
    let (merged, own) ← toEntries entries
    return merged ++ own
  | .sequence _ items => toMergedAll items
  | .scalar .. => .error .badSyntax

/-- The entries that several mappings give to one, the last of them first. -/
def toMergedAll : List Node → Except DecodeError (List (Value × Value))
  | [] => .ok []
  | .mapping _ entries :: rest => do
    let (merged, own) ← toEntries entries
    return (← toMergedAll rest) ++ merged ++ own
  | _ :: _ => .error .badSyntax
end

/-- The value of a document; a document without a root is null. -/
def decode (text : String) : Except DecodeError Value :=
  match root? text with
  | none => .error .badSyntax
  | some none => .ok .null
  | some (some n) => n.toValue

end TypeSuite.Yaml
