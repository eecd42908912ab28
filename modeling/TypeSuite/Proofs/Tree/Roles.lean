import TypeSuite.Proofs.Node.Role
import TypeSuite.Proofs.Tree.Meaning

/-!
# Roles of lowered trees

Whatever a tree stands for in a position fits the role of that position, so the lowering puts no
node where it has no place. `Tree.lower_meets` says so of the statements of a file, and that every
complete tree is lowered.
-/

namespace TypeSuite

open Node (Fits)

/-- The role of what stands in a position. -/
def Position.role : Position → Role
  | .statement => .statement
  | .base => .base
  | .member => .member
  | .parameter => .parameter
  | .annotated | .type => .type
  | .name | .binder => .name

namespace Stands

variable {source : ByteArray} {position : Position} {t : Tree}

/-- What a name stands for fits the role of a name. -/
theorem fits_name {n : Node} (h : Stands source .name t n) : Fits .name n := by
  cases h with
  | unknown => exact .unknown .name _ _
  | identifier => exact .identifier _
  | stringLiteral => exact .stringLiteral _
  | numericLiteral => exact .numericLiteral _
  | computedName => exact .computedName _

section

variable (ih : ∀ u, u.OccursBelow t → ∀ position n, Stands source position u n →
  Fits position.role n)

include ih

/-- What stands in a field for a name, or is missing there, fits the role of a name. -/
theorem fits_or_missing {c : Option Tree} {n : Node} (hname : position.role = .name)
    (hc : ∀ u ∈ c, u.OccursBelow t) (h : OrMissing (Stands source position) c n) :
    Fits .name n := by
  cases h with
  | missing => exact .unknown .name _ _
  | present hstands => exact hname ▸ ih _ (hc _ rfl) position n hstands

/-- What trees stand for one by one fits the role of their position. -/
theorem fits_list {ts : List Tree} {ns : List Node} (hts : ∀ u ∈ ts, u.OccursBelow t)
    (h : List.Forall₂ (Stands source position) ts ns) : ∀ n ∈ ns, Fits position.role n := by
  intro n hn
  obtain ⟨u, hu, hstands⟩ := exists_left_of_mem h hn
  exact ih u (hts u hu) position n hstands

/-- What stands in a field fits the role of the position. -/
theorem fits_field {field : String} {type : Option Node}
    (h : Option.Rel (Stands source position) (t.field? field) type) :
    ∀ n ∈ type, Fits position.role n := by
  intro n hn
  generalize hfield : t.field? field = found at h
  cases h with
  | none => cases hn
  | some hstands =>
      obtain rfl := Option.some.inj hn
      exact ih _ (Tree.below_of_field hfield) position _ hstands

end

/-- Whatever a tree stands for in a position fits the role of that position. -/
theorem fits {n : Node} (h : Stands source position t n) : Fits position.role n := by
  induction t using Tree.below_induction generalizing position n with
  | h t ih =>
  have hbelow : ∀ u, u.OccursBelow t → ∀ position n, Stands source position u n →
      Fits position.role n := fun u hu _ _ => ih u hu
  have hname : ∀ {field n}, OrMissing (Stands source .name) (t.field? field) n → Fits .name n :=
    fits_or_missing hbelow rfl fun _ => Tree.below_of_field
  cases h with
  | unknown => exact .unknown _ _ _
  | exported _ hfield hinner => exact ih _ (Tree.below_of_field hfield) hinner
  | ambient _ hitems hinner =>
      exact ih _ (Tree.below_of_items (hitems ▸ List.mem_singleton_self _)) hinner
  | interface _ _ hnamed hbases hmembers =>
      exact .interface _ (hname hnamed) (fits_list hbelow (fun _ => Tree.below_of_bases) hbases)
        (fits_list hbelow (fun _ => Tree.below_of_members) hmembers)
  | typeAlias _ _ hnamed hfield htype =>
      exact .typeAlias _ (hname hnamed) (ih _ (Tree.below_of_field hfield) htype)
  | base => exact .heritage _ _ nofun
  | genericBase _ _ _ _ harguments =>
      exact .heritage _ _ (fits_list hbelow (fun _ => Tree.below_of_items_in) harguments)
  | property _ _ hnamed htype => exact .property _ _ (hname hnamed) (fits_field hbelow htype)
  | method _ _ hnamed hparameters htype =>
      exact .method _ (hname hnamed)
        (fits_list hbelow (fun _ => Tree.below_of_items_in) hparameters)
        (fits_field hbelow htype)
  | parameter _ _ hnamed htype =>
      exact .parameter _ _ (fits_or_missing hbelow rfl (fun _ => Tree.below_of_binder) hnamed)
        (fits_field hbelow htype)
  | @annotated _ first _ _ _ hitems hfirst =>
      have hmem : first ∈ t.items := hitems ▸ List.mem_cons_self
      exact hbelow first (Tree.below_of_items hmem) .type n hfirst
  | reference => exact .reference _ _ nofun
  | generic _ _ _ _ harguments =>
      exact .reference _ _ (fits_list hbelow (fun _ => Tree.below_of_items_in) harguments)
  | keyword | this => exact .keyword _ _
  | literal => exact .literal _
  | parenthesized _ _ hitems hfirst =>
      exact .parenthesized _ (ih _ (Tree.below_of_items (hitems ▸ List.mem_cons_self)) hfirst)
  | array _ _ hitems hfirst =>
      exact .array _ (ih _ (Tree.below_of_items (hitems ▸ List.mem_cons_self)) hfirst)
  | tuple _ _ helements =>
      exact .tuple _ (fits_list hbelow (fun _ => Tree.below_of_items) helements)
  | union hkind _ htypes =>
      exact .union _ (fits_list hbelow (fun _ => Tree.below_of_operands hkind) htypes)
  | typeLiteral _ _ hmembers =>
      exact .typeLiteral _ (fits_list hbelow (fun _ => Tree.below_of_items) hmembers)
  | function _ _ hparameters htype =>
      exact .function _ (fits_list hbelow (fun _ => Tree.below_of_items_in) hparameters)
        (fits_field hbelow htype)
  | identifier => exact .identifier _
  | stringLiteral => exact .stringLiteral _
  | numericLiteral => exact .numericLiteral _
  | computedName => exact .computedName _
  | thisBinder => exact .identifier _
  | binder _ hnamed => exact hnamed.fits_name

end Stands

/-- What a tree means in a position fits the role of that position, and it has a meaning there if it
is complete. -/
theorem Lowering.meaning_fits (source : ByteArray) (t : Tree) (position : Position) :
    (meaning source position t).Meets (t.IsComplete source) (Fits position.role) :=
  (meaning_stands source t position).imp fun _ => Stands.fits

/-- The statements of a file that a tree stands for fit their role. -/
theorem Tree.StandsFor.fits {source : ByteArray} {fileName : String} {root : Tree} {f : SourceFile}
    (h : root.StandsFor source fileName f) : ∀ n ∈ f.statements, Fits .statement n := by
  intro n hn
  obtain ⟨c, -, hstands⟩ := exists_left_of_mem h.statements hn
  exact hstands.fits

/-- The statements of a lowered tree stand in their role, and every complete tree is lowered. -/
theorem Tree.lower_meets (source : ByteArray) (fileName : String) (root : Tree) :
    (root.lower source fileName).Meets (root.IsComplete source) fun f =>
      ∀ n ∈ f.statements, Fits .statement n :=
  (root.lower_stands source fileName).imp fun _ => Tree.StandsFor.fits

end TypeSuite
