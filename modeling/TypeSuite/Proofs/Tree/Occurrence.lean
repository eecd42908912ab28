import TypeSuite.Tree.Basic

/-!
# Occurrence of trees

A tree occurs in itself and in every tree that has it among its children, at any depth. `HasParts`
names the children that the lowering cannot do without.
-/

namespace TypeSuite.Tree

/-- What holds of a tree whenever it holds of its children holds of every tree. -/
theorem children_induction {holds : Tree → Prop}
    (h : ∀ t, (∀ c ∈ t.children, holds c) → holds t) (t : Tree) : holds t :=
  h t fun c _ => children_induction h c
termination_by sizeOf t
decreasing_by
  have hc : c ∈ t.children := ‹_›
  cases t with
  | node head children =>
      have hsize : sizeOf c < sizeOf children := List.sizeOf_lt_of_mem hc
      simp only [node.sizeOf_spec]
      omega

/-- A tree occurs in a tree: it is that tree, or it occurs in one of its children. -/
inductive Occurs (t : Tree) : Tree → Prop where
  | here : Occurs t t
  | inside {c parent : Tree} : c ∈ parent.children → Occurs t c → Occurs t parent

/-- A tree occurs below a tree: in one of its children. -/
def OccursBelow (t parent : Tree) : Prop :=
  ∃ c ∈ parent.children, Occurs t c

/-- What occurs in a tree that occurs in another one occurs in that one. -/
theorem Occurs.trans {u t root : Tree} (hu : Occurs u t) (ht : Occurs t root) : Occurs u root := by
  induction ht with
  | here => exact hu
  | inside hc _ ih => exact .inside hc ih

/-- What occurs in a tree that occurs below another one occurs in that one. -/
theorem OccursBelow.occurs {u t root : Tree} (ht : OccursBelow t root) (hu : Occurs u t) :
    Occurs u root := by
  obtain ⟨c, hc, ht⟩ := ht
  exact .inside hc (hu.trans ht)

/-- What occurs below a tree that occurs below another one occurs below that one. -/
theorem OccursBelow.trans {u t root : Tree} (hu : OccursBelow u t) (ht : OccursBelow t root) :
    OccursBelow u root := by
  obtain ⟨c, hc, ht⟩ := ht
  obtain ⟨child, hchild, hu⟩ := hu
  exact ⟨c, hc, Occurs.trans (.inside hchild hu) ht⟩

/-- What holds of a tree whenever it holds of all that occurs below it holds of every tree. -/
theorem below_induction {holds : Tree → Prop}
    (h : ∀ t, (∀ u, OccursBelow u t → holds u) → holds t) (t : Tree) : holds t := by
  suffices hall : ∀ u, Occurs u t → holds u from hall t .here
  induction t using children_induction with
  | h t ih =>
      have hbelow : ∀ u, OccursBelow u t → holds u := fun u ⟨c, hc, hu⟩ => ih c hc u hu
      intro u hu
      cases hu with
      | here => exact h t hbelow
      | inside hc hu => exact hbelow u ⟨_, hc, hu⟩

/-- What holds of every tree in a tree holds of it and of every tree in its children. -/
theorem forall_occurs_iff {holds : Tree → Prop} {head : Head} {children : List Tree} :
    (∀ t, Occurs t (.node head children) → holds t) ↔
      holds (.node head children) ∧ ∀ c ∈ children, ∀ t, Occurs t c → holds t := by
  constructor
  · exact fun h => ⟨h _ .here, fun c hc t ht => h t (.inside hc ht)⟩
  · rintro ⟨hroot, hchildren⟩ t ht
    cases ht with
    | here => exact hroot
    | inside hc ht => exact hchildren _ hc t ht

/-- An alias has a value, a generic type has a name, and a bracketed or array type has a child that
carries meaning. -/
structure HasParts (t : Tree) : Prop where
  value : t.head.kind = "type_alias_declaration" →
    ∃ c ∈ t.children, c.head.field = some "value"
  name : t.head.kind = "generic_type" → ∃ c ∈ t.children, c.head.field = some "name"
  item : t.head.kind = "parenthesized_type" ∨ t.head.kind = "array_type" →
    ∃ c ∈ t.children, c.head.isItem = true

/-- A tree without errors on the first line of its source. -/
def part (kind : String) (start stop : Nat) (field : Option String) (children : List Tree) :
    Tree :=
  .node ⟨kind, start, stop, 0, start, field, true, false, false⟩ children

/-- A token of fixed spelling on the first line of its source. -/
def token (text : String) (start : Nat) : Tree :=
  .node ⟨text, start, start + text.utf8ByteSize, 0, start, none, false, false, false⟩ []

end TypeSuite.Tree
