import TypeSuite.Proofs.Compile.Sorts
import TypeSuite.Proofs.Node.Equality
import TypeSuite.Proofs.Tree.Roles

/-!
# Optional members

A question mark behind the name of a member says that the member may be absent. The mark of a
property is kept on the way from its tree to its compiled value, and that of a method is lost:
`member_marked_iff` says that a compiled member has a marked value exactly if its tree is a property
with a question mark.
-/

namespace TypeSuite

open Validator (Fills)

/-- A tree has a question mark among its tokens. -/
def Tree.IsMarked (t : Tree) : Prop :=
  ∃ c ∈ t.children, c.head.named = false ∧ c.head.kind = "?"

namespace Lowering

variable {source : ByteArray} {head : Head} {children : List Child}

/-- A token is among the readings of children if and only if it is among the children. -/
theorem has_token_read_all (source : ByteArray) (token : String) (ts : List Tree) :
    Child.hasToken token (readAll source ts) = true ↔
      ∃ c ∈ ts, c.head.named = false ∧ c.head.kind = token := by
  rw [read_all_eq_map, Child.hasToken, List.any_map, List.any_eq_true]
  simp

/-- The member of a tree is made from its children. -/
theorem read_member (source : ByteArray) (t : Tree) :
    (read source t).member = memberOf source t.head (readAll source t.children) := by
  obtain ⟨head, children⟩ := t
  rfl

/-- A property is lowered to a property, which is optional if it has a question mark. -/
theorem member_of_property (hkind : head.kind = "property_signature") :
    (memberOf source head children).Meets False fun n =>
      ∃ name type text, n = .property name type (Child.hasToken "?" children) text := by
  simp only [memberOf, hkind]
  refine Lowered.meets_bind (Lowered.meets_self _) fun name _ => ?_
  refine Lowered.meets_bind (Lowered.meets_self _) fun type _ => ?_
  refine Lowered.meets_bind (Lowered.meets_self _) fun text _ => ?_
  exact Lowered.meets_pure ⟨name, type, text, rfl⟩

/-- A method is lowered to a method. -/
theorem member_of_method (hkind : head.kind = "method_signature") :
    (memberOf source head children).Meets False fun n =>
      ∃ name parameters type text, n = .method name parameters type text := by
  simp only [memberOf, hkind]
  refine Lowered.meets_bind (Lowered.meets_self _) fun name _ => ?_
  refine Lowered.meets_bind (Lowered.meets_self _) fun parameters _ => ?_
  refine Lowered.meets_bind (Lowered.meets_self _) fun type _ => ?_
  refine Lowered.meets_bind (Lowered.meets_self _) fun text _ => ?_
  exact Lowered.meets_pure ⟨name, parameters, type, text, rfl⟩

end Lowering

namespace Compile

variable {σ : Type} {settings : CompileSettings σ} {name : Node} {type : Option Node}
  {text : String}

/-- The value of an optional member is marked, and that of any other is not. -/
theorem is_opt_optional_value {value : Validator} (h : Fills .type value) (optional : Bool) :
    (optionalValue optional value).isOpt = optional := by
  cases optional with
  | false => exact h.is_opt
  | true => rfl

/-- A property compiles to a member whose value is marked exactly if the property is optional. -/
theorem yields_property {optional : Bool}
    (h : Node.Fits .member (.property name type optional text)) :
    Yields (node settings (.property name type optional text)) fun v =>
      ∃ name value, v = .member name value ∧ value.isOpt = optional := by
  cases h with
  | property _ _ _ htype =>
      refine yields_bind (yields_any _) fun name _ => ?_
      refine yields_bind (yields_annotated fun n hn => fits_yields (htype n hn)) fun _ hvalue => ?_
      exact yields_pure ⟨name, _, rfl, is_opt_optional_value hvalue optional⟩

/-- A method compiles to a member whose value is a function, without a mark. -/
theorem yields_method {parameters : List Node} :
    Yields (node settings (.method name parameters type text)) fun v =>
      ∃ name result params, v = .member name (.func result params) := by
  refine yields_bind (yields_any _) fun name _ => ?_
  refine yields_bind (yields_any _) fun result _ => ?_
  refine yields_bind (yields_any _) fun params _ => ?_
  exact yields_pure ⟨name, result, params, rfl⟩

/-- When a property or a method is lowered and compiled, with any resolver and any wrapper, it gives
a member. The value of the member is marked as one that may be absent if and only if the tree is a
property with a question mark. -/
theorem member_marked_iff (settings : CompileSettings σ) {p q : Progress σ} {source : ByteArray}
    {t : Tree} {n : Node} {v : Validator}
    (hkind : t.head.kind = "property_signature" ∨ t.head.kind = "method_signature")
    (hlower : (Lowering.read source t).member = .ok n)
    (hrun : (node settings n).run p = (.ok v, q)) :
    ∃ name value, v = .member name value ∧
      (value.isOpt = true ↔ t.head.kind = "property_signature" ∧ t.IsMarked) := by
  have hfits : Node.Fits .member n := (Lowering.meaning_fits source t .member).holds hlower
  rw [Lowering.read_member] at hlower
  rcases hkind with hkind | hkind
  · obtain ⟨name, type, text, rfl⟩ := (Lowering.member_of_property hkind).holds hlower
    obtain ⟨name, value, rfl, hvalue⟩ := yields_property hfits p v q hrun
    refine ⟨name, value, rfl, ?_⟩
    rw [hvalue, Lowering.has_token_read_all, Tree.IsMarked]
    simp only [hkind, true_and]
  · obtain ⟨name, parameters, type, text, rfl⟩ := (Lowering.member_of_method hkind).holds hlower
    obtain ⟨name, result, params, rfl⟩ := yields_method p v q hrun
    refine ⟨name, _, rfl, ?_⟩
    simp [hkind, Validator.isOpt]

/-- An optional property with a comment in front of its question mark. -/
def optionalProperty : Tree :=
  .part "property_signature" 0 9 none
    [.part "property_identifier" 0 1 (some "name") [], .part "comment" 1 5 none [], .token "?" 5,
     .part "type_annotation" 6 9 (some "type")
       [.token ":" 6, .part "type_identifier" 8 9 none []]]

/-- The mark of the property is kept. -/
theorem member_marked_iff_property :
    optionalProperty.IsMarked ∧
    ∃ n, (Lowering.read "x/**/?: A".toUTF8 optionalProperty).member = .ok n ∧
      ∃ value q, (node ⟨Resolver.declared, "unknown", "Promise"⟩ n).run (.start []) =
        (.ok (.member "x" value), q) ∧ value.isOpt = true := by
  have hlower : (Lowering.read "x/**/?: A".toUTF8 optionalProperty).member =
      .ok (.property (.identifier "x") (some (.reference (.identifier "A") [] "A")) true
        "x/**/?: A") :=
    Node.eq_ok_of_same (by decide +kernel)
  have hmarked : optionalProperty.IsMarked :=
    ⟨.token "?" 5, List.mem_cons_of_mem _ (List.mem_cons_of_mem _ List.mem_cons_self), rfl, rfl⟩
  refine ⟨hmarked, _, hlower, .opt (.ref "A"), _, rfl, ?_⟩
  obtain ⟨name, value, hmember, hvalue⟩ := member_marked_iff
    ⟨Resolver.declared, "unknown", "Promise"⟩ (p := .start []) (.inl rfl) hlower rfl
  obtain ⟨rfl, rfl⟩ := Validator.member.inj hmember
  exact hvalue.mpr ⟨rfl, hmarked⟩

/-- An optional method. -/
def optionalMethod : Tree :=
  .part "method_signature" 0 7 none
    [.part "property_identifier" 0 1 (some "name") [], .token "?" 1,
     .part "formal_parameters" 2 4 (some "parameters") [.token "(" 2, .token ")" 3],
     .part "type_annotation" 4 7 (some "return_type")
       [.token ":" 4, .part "type_identifier" 6 7 none []]]

/-- The mark of a method is lost: its value is a function that may not be absent. -/
theorem method_mark_lost :
    optionalMethod.IsMarked ∧
    ∃ n, (Lowering.read "f?(): A".toUTF8 optionalMethod).member = .ok n ∧
      ∃ value q, (node ⟨Resolver.declared, "unknown", "Promise"⟩ n).run (.start []) =
        (.ok (.member "f" value), q) ∧ value.isOpt = false := by
  have hlower : (Lowering.read "f?(): A".toUTF8 optionalMethod).member =
      .ok (.method (.identifier "f") [] (some (.reference (.identifier "A") [] "A")) "f?(): A") :=
    Node.eq_ok_of_same (by decide +kernel)
  have hmarked : optionalMethod.IsMarked :=
    ⟨.token "?" 1, List.mem_cons_of_mem _ List.mem_cons_self, rfl, rfl⟩
  exact ⟨hmarked, _, hlower, _, _, rfl, rfl⟩

end Compile

end TypeSuite
