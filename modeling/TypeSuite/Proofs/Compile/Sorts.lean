import TypeSuite.Proofs.Compile.Run
import TypeSuite.Proofs.Node.Role
import TypeSuite.Proofs.Validator.Slots

/-!
# Sorts of compiled nodes

The role of a node says which slot its compiled value fills. `fits_yields` shows this for every role
by induction on the node, and `yields_file_sorted` that the declarations of a file whose statements
stand in their role are well sorted. So they all have a written form.
-/

namespace TypeSuite

open Validator (Fills IsExpression)

/-- The values that a node in a role may compile to. -/
def Role.Admits : Role → Validator → Prop
  | .statement, v => ∃ name value, v = .declaration name value ∧ Fills .type value
  | .base, v => Fills .base v
  | .member, v => Fills .member v
  | .parameter, v => Fills .parameter v
  | .type, v => Fills .type v
  | .name, _ => True

/-- A marked type may be the value of an optional member, and a bare one that of any other. -/
theorem Validator.Fills.marked {v : Validator} (optional : Bool) (h : Fills .type v) :
    Fills .value (Compile.optionalValue optional v) := by
  cases optional with
  | false => exact .required h
  | true => exact .optional h

namespace Compile

variable {σ : Type} {settings : CompileSettings σ}

/-- Nodes give values of a kind when each of them does. -/
theorem yields_nodes {holds : Validator → Prop} {ns : List Node}
    (h : ∀ n ∈ ns, Yields (node settings n) holds) :
    Yields (nodes settings ns) fun vs => ∀ v ∈ vs, holds v := by
  induction ns with
  | nil => exact yields_pure fun v hv => absurd hv List.not_mem_nil
  | cons n rest ih =>
      refine yields_bind (h n List.mem_cons_self) fun v hv => ?_
      refine yields_bind (ih fun m hm => h m (List.mem_cons_of_mem _ hm)) fun vs hvs => ?_
      exact yields_pure (List.forall_mem_cons.mpr ⟨hv, hvs⟩)

/-- An annotation gives a type when a present one does. -/
theorem yields_annotated {type : Option Node}
    (h : ∀ n ∈ type, Yields (node settings n) (Fills .type)) :
    Yields (annotated settings type) (Fills .type) := by
  cases type with
  | none => exact yields_pure (.ref "any")
  | some n => exact h n rfl

/-- An exported declaration is of the sort of a statement when its value is a type. -/
theorem yields_export {d : Declaration} (h : Fills .type d.value) :
    Yields (addExport d : Compile σ Validator) (Role.Admits .statement) := by
  intro p v q hrun
  rw [yields_add_export d p v q hrun]
  exact ⟨d.name, d.value, rfl, h⟩

/-- A node in a role compiles to a value of the sort of that role. -/
theorem fits_yields {role : Role} {n : Node} (h : Node.Fits role n) :
    Yields (node settings n) role.Admits := by
  induction h with
  | unknown | stringLiteral | numericLiteral | computedName => exact yields_throw _ _
  | identifier => exact yields_pure trivial
  | literal text => exact yields_pure (.literal text)
  | keyword keyword text => exact yields_pure (.ref keyword.name)
  | interface text _ _ _ _ hbases hmembers =>
      refine yields_bind (yields_any _) fun name _ => ?_
      refine yields_bind (yields_nodes hmembers) fun members hmembers => ?_
      refine yields_bind (yields_nodes hbases) fun bases hbases => ?_
      exact yields_export (.iface hbases hmembers)
  | typeAlias text _ _ _ htype =>
      refine yields_bind (yields_any _) fun name _ => ?_
      exact yields_bind htype fun value hvalue => yields_export hvalue
  | heritage base text => exact yields_pure (.base base)
  | property optional text _ _ _ htype =>
      refine yields_bind (yields_any _) fun name _ => ?_
      refine yields_bind (yields_annotated htype) fun value hvalue => yields_pure ?_
      exact .member name (hvalue.marked optional)
  | method text _ _ _ _ hparameters htype =>
      refine yields_bind (yields_any _) fun name _ => ?_
      refine yields_bind (yields_annotated htype) fun result hresult => ?_
      refine yields_bind (yields_nodes hparameters) fun params hparams => yields_pure ?_
      exact .member name (.required (.func hresult hparams))
  | parameter optional text _ _ _ htype =>
      refine yields_bind (yields_any _) fun name _ => ?_
      exact yields_bind (yields_annotated htype) fun type htype =>
        yields_pure (.parameter name optional htype)
  -- The wrapper stands for its one argument, so the hypothesis on the arguments is needed.
  | @reference arguments name text harguments ih =>
      match arguments with
      | [] => exact yields_pure (.ref name)
      | [argument] =>
          rw [node]
          split
          case isTrue => exact ih argument List.mem_cons_self
          case isFalse => exact yields_throw _ _
      | _ :: _ :: _ => exact yields_throw _ _
  | function text _ _ hparameters htype =>
      refine yields_bind (yields_annotated htype) fun result hresult => ?_
      exact yields_bind (yields_nodes hparameters) fun params hparams =>
        yields_pure (.func hresult hparams)
  | typeLiteral text _ hmembers =>
      refine yields_bind (yields_nodes hmembers) fun members hmembers => yields_pure ?_
      exact .iface (fun b hb => absurd hb List.not_mem_nil) hmembers
  | array text _ helement =>
      exact yields_bind helement fun element helement => yields_pure (.array helement)
  | tuple text _ htypes =>
      exact yields_bind (yields_nodes htypes) fun types htypes => yields_pure (.tuple htypes)
  | union text _ htypes =>
      exact yields_bind (yields_nodes htypes) fun types htypes => yields_pure (.union htypes)
  | parenthesized text _ htype => exact htype

/-- The declarations of statements in their role are well sorted. -/
theorem yields_statement_list (fileName : String) {ns : List Node}
    (h : ∀ n ∈ ns, Node.Fits .statement n) :
    Yields (statementList settings fileName ns) fun ds => ∀ d ∈ ds, Fills .type d.value := by
  induction ns with
  | nil => exact yields_pure fun d hd => absurd hd List.not_mem_nil
  | cons n rest ih =>
      have hrest := ih fun m hm => h m (List.mem_cons_of_mem _ hm)
      rw [statementList]
      split
      case isTrue =>
        refine yields_bind (fits_yields (h n List.mem_cons_self)) fun v hv => ?_
        refine yields_bind hrest fun ds hds => yields_pure ?_
        obtain ⟨name, value, rfl, hvalue⟩ := hv
        exact List.forall_mem_cons.mpr ⟨hvalue, hds⟩
      case isFalse => exact yields_bind (yields_any _) fun _ _ => hrest

/-- The declarations of a file whose statements stand in their role are well sorted. -/
theorem yields_file_sorted {f : SourceFile} (h : ∀ n ∈ f.statements, Node.Fits .statement n) :
    Yields (file settings f) fun m => ∀ d ∈ m.declarations, Fills .type d.value :=
  yields_bind (yields_statement_list f.fileName h) fun _ hds =>
    yields_bind (yields_any _) fun _ _ => yields_pure hds

/-- The declarations of a file whose statements stand in their role have values with a written
form. -/
theorem yields_file {f : SourceFile} (h : ∀ n ∈ f.statements, Node.Fits .statement n) :
    Yields (file settings f) fun m => ∀ d ∈ m.declarations, IsExpression (fun _ => True) d.value :=
  fun p m q hrun d hd => (yields_file_sorted h p m q hrun d hd).is_written

end Compile

end TypeSuite
