import TypeSuite.Compile.Error
import TypeSuite.Validator.Basic

/-!
# Exported declarations

The declarations that a file exports are collected in order, each under a name of its own.
-/

namespace TypeSuite

/-- The exported declarations of a file, in order. No name occurs twice. -/
structure Exports where
  entries : List Declaration
  /-- The set of the names that are taken, by which additions are decided. -/
  seen : List String
  distinct : (entries.map (·.name)).Nodup
  covered : ∀ name, name ∈ seen ↔ name ∈ entries.map (·.name)

namespace Exports

/-- The exports of a file in which nothing is declared yet. -/
def empty : Exports := ⟨[], [], List.nodup_nil, fun _ => .rfl⟩

instance : Inhabited Exports := ⟨empty⟩

/-- The exported names in order. -/
def names (exports : Exports) : List String :=
  exports.entries.map (·.name)

/-- The number of exports. -/
def size (exports : Exports) : Nat :=
  exports.entries.length

/-- Adding a new name at the end keeps the names distinct. -/
theorem distinct_concat {entries : List Declaration} {d : Declaration}
    (distinct : (entries.map (·.name)).Nodup) (fresh : d.name ∉ entries.map (·.name)) :
    ((entries ++ [d]).map (·.name)).Nodup := by
  rw [List.map_append, List.nodup_append]
  refine ⟨distinct, by simp, ?_⟩
  intro a ha b hb
  simp only [List.map_cons, List.map_nil, List.mem_singleton] at hb
  subst hb
  exact fun same => fresh (same ▸ ha)

/-- Adding a declaration at the end takes its name besides those that are taken. -/
theorem covered_concat {entries : List Declaration} {seen : List String} (d : Declaration)
    (covered : ∀ name, name ∈ seen ↔ name ∈ entries.map (·.name)) (name : String) :
    name ∈ d.name :: seen ↔ name ∈ (entries ++ [d]).map (·.name) := by
  rw [List.mem_cons, covered, List.map_append, List.mem_append, List.map_singleton,
    List.mem_singleton]
  exact Or.comm

/-- Exports a declaration; a name that is taken is refused. -/
def add (exports : Exports) (d : Declaration) : Except CompileError Exports :=
  if taken : d.name ∈ exports.seen then .error (.duplicateExport d.name)
  else .ok
    { entries := exports.entries ++ [d]
      seen := d.name :: exports.seen
      distinct := distinct_concat exports.distinct fun h => taken ((exports.covered d.name).mpr h)
      covered := covered_concat d exports.covered }

/-- A declaration whose name is taken is refused. -/
theorem add_of_mem {exports : Exports} {d : Declaration} (h : d.name ∈ exports.names) :
    exports.add d = .error (.duplicateExport d.name) :=
  dif_pos ((exports.covered d.name).mpr h)

/-- A declaration whose name is not taken is added behind the others. -/
theorem add_of_not_mem {exports : Exports} {d : Declaration} (h : d.name ∉ exports.names) :
    ∃ after, exports.add d = .ok after ∧ after.entries = exports.entries ++ [d] :=
  ⟨_, dif_neg fun taken => h ((exports.covered d.name).mp taken), rfl⟩

end Exports

/-- The exports of a file as they stood at some moment. -/
structure Manifest where
  entries : List Declaration

namespace Manifest

/-- The manifest of a file that exports nothing. -/
def empty : Manifest := ⟨[]⟩

/-- The names in a manifest, in order. -/
def names (manifest : Manifest) : List String :=
  manifest.entries.map (·.name)

/-- The number of entries of a manifest. -/
def size (manifest : Manifest) : Nat :=
  manifest.entries.length

/-- Whether a manifest has an entry of a name. -/
def contains (manifest : Manifest) (name : String) : Bool :=
  manifest.entries.any (·.name == name)

end Manifest

/-- The manifest of the exports so far. -/
def Exports.manifest (exports : Exports) : Manifest :=
  ⟨exports.entries⟩

end TypeSuite
