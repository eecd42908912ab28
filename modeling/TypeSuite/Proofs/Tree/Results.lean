import Mathlib.Data.List.Forall2
import TypeSuite.Proofs.Tree.Occurrence
import TypeSuite.Proofs.Tree.Texts

/-!
# Results of the lowering

What is said of a result is said of its value, and it tells when there is one: `Meets complete`
says of a result that its value has a property, and that it is no fault when `complete` holds. Such
statements are put together step by step along a lowering. What children bring into it is read off
the children themselves.
-/

namespace TypeSuite

section

variable {α β : Type} {related : α → β → Prop} {as : List α} {bs : List β}

/-- In lists that are related one by one, what stands on the right is related to something on the
left. -/
theorem exists_left_of_mem (h : List.Forall₂ related as bs) {b : β} (hb : b ∈ bs) :
    ∃ a ∈ as, related a b := by
  obtain ⟨i, hi, rfl⟩ := List.getElem_of_mem hb
  have hi' : i < as.length := h.length_eq ▸ hi
  exact ⟨as[i], List.getElem_mem hi', h.get hi' hi⟩

/-- In lists that are related one by one, what stands on the left is related to something on the
right. -/
theorem exists_right_of_mem (h : List.Forall₂ related as bs) {a : α} (ha : a ∈ as) :
    ∃ b ∈ bs, related a b := by
  obtain ⟨i, hi, rfl⟩ := List.getElem_of_mem ha
  have hi' : i < bs.length := h.length_eq ▸ hi
  exact ⟨bs[i], List.getElem_mem hi', h.get hi hi'⟩

end

/-- A result has a property when it is a value, and is no fault under a condition. -/
def Lowered.Meets {α : Type} (complete : Prop) (x : Lowered α) (holds : α → Prop) : Prop :=
  match x with
  | .ok a => holds a
  | .error _ => ¬ complete

namespace Lowered

variable {α β : Type} {complete : Prop}

/-- A result that is no fault has its property. -/
theorem Meets.holds {x : Lowered α} {holds : α → Prop} (h : x.Meets complete holds) {a : α}
    (ha : x = .ok a) : holds a := by
  subst ha
  exact h

/-- Under its condition a result is no fault. -/
theorem Meets.is_ok {x : Lowered α} {holds : α → Prop} (h : x.Meets complete holds)
    (hcomplete : complete) : ∃ a, x = .ok a := by
  cases x with
  | ok a => exact ⟨a, rfl⟩
  | error fault => exact absurd hcomplete h

/-- A stronger condition asks for less. -/
theorem Meets.under {x : Lowered α} {holds : α → Prop} {stronger : Prop}
    (h : x.Meets complete holds) (himp : stronger → complete) : x.Meets stronger holds := by
  cases x with
  | ok a => exact h
  | error fault => exact fun hstronger => h (himp hstronger)

/-- A result that is no fault is its value. -/
theorem meets_self (x : Lowered α) : x.Meets False (x = .ok ·) := by
  cases x with
  | ok a => rfl
  | error fault => exact not_false

/-- The value of a result hands its property to the result behind it. -/
theorem meets_bind {x : Lowered α} {f : α → Lowered β} {first : α → Prop} {second : β → Prop}
    (hx : x.Meets complete first) (hf : ∀ a, first a → (f a).Meets complete second) :
    (x >>= f).Meets complete second := by
  cases x with
  | ok a => exact hf a hx
  | error fault => exact hx

/-- A finished value has the properties it has. -/
theorem meets_pure {a : α} {holds : α → Prop} (h : holds a) :
    (pure a : Lowered α).Meets complete holds :=
  h

/-- What follows from a property holds as well. -/
theorem Meets.imp {x : Lowered α} {first second : α → Prop} (h : x.Meets complete first)
    (himp : ∀ a, first a → second a) : x.Meets complete second := by
  cases x with
  | ok a => exact himp a h
  | error fault => exact h

/-- The results of a list are related to its elements one by one when each element is related to its
own result. -/
theorem meets_forall₂ {f : α → Lowered β} {related : α → β → Prop} {as : List α}
    (h : ∀ a ∈ as, (f a).Meets complete (related a)) :
    (as.mapM f).Meets complete (List.Forall₂ related as) := by
  induction as with
  | nil => exact .nil
  | cons a rest ih =>
      rw [List.mapM_cons]
      refine meets_bind (h a List.mem_cons_self) fun b hb => ?_
      refine meets_bind (ih fun c hc => h c (List.mem_cons_of_mem _ hc)) fun bs hbs => ?_
      exact meets_pure (.cons hb hbs)

/-- Results that each have a property all have it. -/
theorem meets_map_m {f : α → Lowered β} {holds : β → Prop} {as : List α}
    (h : ∀ a ∈ as, (f a).Meets complete holds) :
    (as.mapM f).Meets complete fun bs => ∀ b ∈ bs, holds b := by
  refine (meets_forall₂ h).imp fun bs hbs b hb => ?_
  obtain ⟨a, -, hholds⟩ := exists_left_of_mem hbs hb
  exact hholds

/-- Results that are no faults are all among their values. -/
theorem map_m_meets (f : α → Lowered β) (as : List α) :
    (as.mapM f).Meets False fun bs => ∀ a ∈ as, ∃ b ∈ bs, f a = .ok b :=
  (meets_forall₂ fun a _ => meets_self (f a)).imp fun _ hbs _ ha => exists_right_of_mem hbs ha

end Lowered

/-- A head covers a text: its bytes are those of the text. -/
def Head.Covers (source : ByteArray) (head : Head) (text : String) : Prop :=
  Text.slice? source head.start head.stop = some text

/-- The bytes that a tree covers are a text. -/
def Head.IsReadable (source : ByteArray) (head : Head) : Prop :=
  ∃ text, head.Covers source text

/-- A tree starts and stops between characters of its source. -/
def Head.OnBoundaries (source : String) (head : Head) : Prop :=
  String.Pos.Raw.IsValid source ⟨head.start⟩ ∧ String.Pos.Raw.IsValid source ⟨head.stop⟩

/-- The bytes between two characters of a source are a text. -/
theorem Head.OnBoundaries.is_readable {source : String} {head : Head}
    (h : head.OnBoundaries source) : head.IsReadable source.toUTF8 :=
  ⟨_, (Text.is_boundary_iff.mpr h.1).slice (Text.is_boundary_iff.mpr h.2)⟩

/-- Every tree in a tree covers a text and has its parts. -/
def Tree.IsComplete (source : ByteArray) (root : Tree) : Prop :=
  ∀ t, Tree.Occurs t root → t.head.IsReadable source ∧ t.HasParts

/-- What occurs in a complete tree is complete. -/
theorem Tree.IsComplete.occurs {source : ByteArray} {root t : Tree} (h : root.IsComplete source)
    (ht : Tree.Occurs t root) : t.IsComplete source :=
  fun _ hu => h _ (hu.trans ht)

/-- What occurs below a complete tree is complete. -/
theorem Tree.IsComplete.below {source : ByteArray} {root t : Tree} (h : root.IsComplete source)
    (ht : t.OccursBelow root) : t.IsComplete source :=
  fun _ hu => h _ (ht.occurs hu)

namespace Tree

/-- The children of a tree that carry meaning. -/
def items (t : Tree) : List Tree :=
  t.children.filter (·.head.isItem)

/-- The first child that fills a field. -/
def field? (t : Tree) (field : String) : Option Tree :=
  t.children.find? (·.head.field == some field)

/-- The children that carry meaning in the child that fills a field. An unfilled field has none. -/
def itemsIn (t : Tree) (field : String) : List Tree :=
  (t.field? field).elim [] items

end Tree

namespace Lowering

variable {source : ByteArray} {complete : Prop} {head : Head}

/-- The text of a tree is what it covers, and it is there when the bytes of the tree are a text. -/
theorem text_of_meets (hhead : complete → head.IsReadable source) :
    (textOf source head).Meets complete (head.Covers source) := by
  unfold textOf
  split
  case h_1 text htext => exact htext
  case h_2 hnone =>
    intro hcomplete
    obtain ⟨text, htext⟩ := hhead hcomplete
    cases htext.symm.trans hnone

/-- A reading is made from the root of its tree and the readings of the children. -/
theorem read_eq (source : ByteArray) (t : Tree) :
    read source t = readingOf source t.head (readAll source t.children) := by
  obtain ⟨head, children⟩ := t
  rfl

/-- The children of a tree are read one by one. -/
theorem read_all_eq_map (source : ByteArray) (ts : List Tree) :
    readAll source ts = ts.map fun t => ⟨t.head, read source t⟩ := by
  induction ts with
  | nil => rfl
  | cons t rest ih => rw [readAll, ih, List.map_cons]

/-- The children that carry meaning are read one by one. -/
theorem items_read_all (source : ByteArray) (t : Tree) :
    Child.items (readAll source t.children) = t.items.map fun c => ⟨c.head, read source c⟩ := by
  rw [read_all_eq_map, Child.items, Tree.items, List.filter_map]
  rfl

/-- What the children that carry meaning are read as is read of them one by one. -/
theorem items_map_m {α : Type} (source : ByteArray) (t : Tree) (result : Reading → Lowered α) :
    ((Child.items (readAll source t.children)).mapM fun c => result c.reading) =
      t.items.mapM fun c => result (read source c) := by
  rw [items_read_all, List.mapM_map]
  rfl

/-- The first child in a field is read. -/
theorem in_field_read_all (source : ByteArray) (field : String) (t : Tree) :
    Child.inField? field (readAll source t.children) =
      (t.field? field).map fun c => ⟨c.head, read source c⟩ := by
  rw [read_all_eq_map, Child.inField?, List.find?_map]
  rfl

/-- The type arguments of a reference are the types in its list of arguments. -/
theorem arguments_in_read_all (source : ByteArray) (t : Tree) :
    argumentsIn (readAll source t.children) =
      (t.itemsIn "type_arguments").mapM fun c => (read source c).type := by
  rw [argumentsIn, in_field_read_all, Tree.itemsIn]
  cases t.field? "type_arguments" with
  | none => rfl
  | some c =>
      dsimp only [Option.map_some]
      rw [read_eq source c]
      exact items_map_m source c (·.type)

end Lowering

end TypeSuite
