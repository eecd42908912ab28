import TypeSuite.Proofs.Validator.Renderable

/-!
# Slots of expressions

An expression is well sorted when its parts stand where the run-time checker expects them:
parameters in the parameter lists of functions, members in interfaces, references as base types and
the mark of an optional value right below a member. `Fills slot v` says that `v` is well sorted and
may stand in a slot of that sort. What fills a slot has a written form.
-/

namespace TypeSuite

/-- Where an expression stands: as a type, as the value of a member, in a parameter list, among the
members of an interface or among its base types. -/
inductive Slot where
  | type | value | parameter | member | base
deriving DecidableEq, Repr

namespace Validator

/-- An expression may stand in a slot, and the expressions in it may stand where they do. -/
inductive Fills : Slot → Validator → Prop where
  | ref (name : String) : Fills .type (.ref name)
  | func {result : Validator} {params : List Validator} :
      Fills .type result → (∀ p ∈ params, Fills .parameter p) → Fills .type (.func result params)
  | iface {bases members : List Validator} :
      (∀ b ∈ bases, Fills .base b) → (∀ m ∈ members, Fills .member m) →
      Fills .type (.iface bases members)
  | array {element : Validator} : Fills .type element → Fills .type (.array element)
  | tuple {elements : List Validator} :
      (∀ e ∈ elements, Fills .type e) → Fills .type (.tuple elements)
  | union {members : List Validator} :
      (∀ m ∈ members, Fills .type m) → Fills .type (.union members)
  | literal (text : String) : Fills .type (.literal text)
  | required {v : Validator} : Fills .type v → Fills .value v
  | optional {v : Validator} : Fills .type v → Fills .value (.opt v)
  | parameter (name : String) {type : Validator} (optional : Bool) :
      Fills .type type → Fills .parameter (.param name type optional)
  | member (name : String) {value : Validator} :
      Fills .value value → Fills .member (.member name value)
  | base (name : String) : Fills .base (.ref name)

/-- Whether an expression is the mark of a value that may be absent. -/
def isOpt : Validator → Bool
  | .opt _ => true
  | _ => false

/-- A type is not marked. -/
theorem Fills.is_opt {v : Validator} (h : Fills .type v) : v.isOpt = false := by
  cases h <;> rfl

/-- What stands among members is a member value with a written form, and everything else is an
expression with a written form. -/
theorem Fills.is_written {slot : Slot} {v : Validator} (h : Fills slot v) :
    if slot = .member then IsMember (fun _ => True) v else IsExpression (fun _ => True) v := by
  induction h with
  | ref | literal | base => trivial
  | func _ _ hresult hparams => exact ⟨hresult, are_expressions_iff.mpr hparams⟩
  | iface _ _ hbases hmembers =>
      exact ⟨are_expressions_iff.mpr hbases, are_members_iff.mpr hmembers⟩
  | array _ h | required _ h | optional _ h | parameter _ _ _ h => exact h
  | tuple _ h | union _ h => exact are_expressions_iff.mpr h
  | member name _ h => exact ⟨name, _, rfl, h⟩

end Validator

end TypeSuite
