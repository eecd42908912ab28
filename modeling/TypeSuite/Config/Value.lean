/-!
# Configuration values

A configuration arrives as a value of a data format: scalars, lists and mappings whose entries keep
their order. Only texts are ever accepted as settings, so all other scalars are kept apart by their
spelling alone.
-/

namespace TypeSuite

/-- A value of a data format. -/
inductive Value where
  | null
  | bool (value : Bool)
  /-- A number or a date, as it was spelled. -/
  | scalar (spelling : String)
  | text (value : String)
  | list (items : List Value)
  | map (entries : List (Value × Value))
deriving Inhabited, Repr

namespace Value

mutual
/-- Compares two values entry by entry. -/
def same : Value → Value → Bool
  | .null, .null => true
  | .bool a, .bool b => a == b
  | .scalar a, .scalar b => a == b
  | .text a, .text b => a == b
  | .list as, .list bs => sameItems as bs
  | .map as, .map bs => sameEntries as bs
  | _, _ => false

/-- Compares two lists of values. -/
def sameItems : List Value → List Value → Bool
  | [], [] => true
  | a :: as, b :: bs => same a b && sameItems as bs
  | _, _ => false

/-- Compares two lists of entries. -/
def sameEntries : List (Value × Value) → List (Value × Value) → Bool
  | [], [] => true
  | (k, v) :: as, (k', v') :: bs => same k k' && same v v' && sameEntries as bs
  | _, _ => false
end

mutual
/-- Values compare equal exactly if they are. -/
theorem same_iff (v w : Value) : same v w = true ↔ v = w := by
  cases v with
  | list as =>
      cases w with
      | list bs => simp [same, same_items_iff as bs]
      | _ => simp [same]
  | map as =>
      cases w with
      | map bs => simp [same, same_entries_iff as bs]
      | _ => simp [same]
  | _ => cases w <;> simp [same]

/-- Lists of values compare equal exactly if they are. -/
theorem same_items_iff (as bs : List Value) : sameItems as bs = true ↔ as = bs := by
  cases as with
  | nil => cases bs <;> simp [sameItems]
  | cons a as =>
      cases bs with
      | nil => simp [sameItems]
      | cons b bs => simp [sameItems, same_iff a b, same_items_iff as bs]

/-- Lists of entries compare equal exactly if they are. -/
theorem same_entries_iff (as bs : List (Value × Value)) :
    sameEntries as bs = true ↔ as = bs := by
  cases as with
  | nil => cases bs <;> simp [sameEntries]
  | cons a as =>
      obtain ⟨k, v⟩ := a
      cases bs with
      | nil => simp [sameEntries]
      | cons b bs =>
          obtain ⟨k', v'⟩ := b
          simp [sameEntries, same_iff k k', same_iff v v', same_entries_iff as bs]
end

instance : DecidableEq Value :=
  fun v w => decidable_of_iff (same v w = true) (same_iff v w)

/-- Whether a value is the given text. -/
def isText (key : String) : Value → Bool
  | .text s => s == key
  | _ => false

/-- The text that a value is, if it is one. -/
def text? : Value → Option String
  | .text s => some s
  | _ => none

/-- The entries of a mapping. -/
def entries? : Value → Option (List (Value × Value))
  | .map entries => some entries
  | _ => none

/-- The entry of a key. -/
def find? (entries : List (Value × Value)) (key : String) : Option Value :=
  (entries.find? fun e => e.1.isText key).map (·.2)

/-- Puts an entry under a key: in the place of the entry that was there, or at the end. -/
def put (key : String) (value : Value) : List (Value × Value) → List (Value × Value)
  | [] => [(.text key, value)]
  | e :: rest => if e.1.isText key then (e.1, value) :: rest else e :: put key value rest

/-- The mapping in which the later entries of a key replace the earlier ones. -/
def mapping (entries : List (String × Value)) : Value :=
  .map (entries.foldl (fun acc e => put e.1 e.2 acc) [])

mutual
/-- Lays a value over another: mappings entry by entry, anything else as a whole. -/
def overlay : Value → Value → Value
  | .map entries, .map base => .map (overlayEntries entries base)
  | value, _ => value

/-- Lays the entries of a mapping over those of another, one after the other. -/
def overlayEntries : List (Value × Value) → List (Value × Value) → List (Value × Value)
  | [], base => base
  | (.text key, value) :: rest, base =>
    let value := match find? base key with
      | some old => overlay value old
      | none => value
    overlayEntries rest (put key value base)
  | (key, value) :: rest, base => overlayEntries rest (base ++ [(key, value)])
end

end Value

end TypeSuite
