import TypeSuite.Proofs.Validator.Layout

/-!
# Expressions that can be written

Every expression with a written form is written, whatever its literals are. The conditions on lists
of expressions and of members are those on their elements.
-/

namespace TypeSuite.Validator

/-- Expressions have a written form together when each of them has one. -/
theorem are_expressions_iff {literal : String → Prop} {es : List Validator} :
    AreExpressions literal es ↔ ∀ e ∈ es, IsExpression literal e := by
  induction es with
  | nil => simp [AreExpressions]
  | cons e rest ih => simp [AreExpressions, ih]

/-- A member value whose value has a written form. -/
def IsMember (literal : String → Prop) (m : Validator) : Prop :=
  ∃ name value, m = .member name value ∧ IsExpression literal value

/-- Members have a written form together when each of them has one. -/
theorem are_members_iff {literal : String → Prop} {members : List Validator} :
    AreMembers literal members ↔ ∀ m ∈ members, IsMember literal m := by
  induction members with
  | nil => simp [AreMembers]
  | cons m rest ih => cases m <;> simp [AreMembers, IsMember, ih]

mutual
/-- An expression with a written form is written. -/
theorem render_ok {literal : String → Prop} {e : Validator} (h : IsExpression literal e) :
    ∃ text, e.render = .ok text := by
  cases e with
  | ref name => exact ⟨_, rfl⟩
  | opt inner =>
      have hinner : IsExpression literal inner := h
      obtain ⟨text, htext⟩ := render_ok hinner
      exact ⟨_, by rw [render, htext]; rfl⟩
  | param name type optional =>
      have htype : IsExpression literal type := h
      obtain ⟨text, htext⟩ := render_ok htype
      exact ⟨_, by rw [render, htext]; rfl⟩
  | func result params =>
      obtain ⟨first, hfirst⟩ := render_ok h.1
      obtain ⟨others, hothers⟩ := render_all_ok h.2
      exact ⟨_, by rw [render, hfirst, hothers]; rfl⟩
  | iface bases members =>
      obtain ⟨lines, hlines⟩ := render_members_ok h.2
      obtain ⟨items, hitems⟩ := render_all_ok h.1
      exact ⟨_, by rw [render, hlines, hitems]; rfl⟩
  | array element =>
      have helement : IsExpression literal element := h
      obtain ⟨text, htext⟩ := render_ok helement
      exact ⟨_, by rw [render, htext]; rfl⟩
  | tuple elements =>
      have helements : AreExpressions literal elements := h
      obtain ⟨items, hitems⟩ := render_all_ok helements
      exact ⟨_, by rw [render, hitems]; rfl⟩
  | union members =>
      have hmembers : AreExpressions literal members := h
      obtain ⟨items, hitems⟩ := render_all_ok hmembers
      exact ⟨_, by rw [render, hitems]; rfl⟩
  | literal text => exact ⟨_, rfl⟩
  | member | declaration | module | plain => exact h.elim

/-- Expressions with a written form are written. -/
theorem render_all_ok {literal : String → Prop} {es : List Validator}
    (h : AreExpressions literal es) : ∃ items, renderAll es = .ok items := by
  cases es with
  | nil => exact ⟨_, rfl⟩
  | cons e rest =>
      obtain ⟨text, htext⟩ := render_ok h.1
      obtain ⟨items, hitems⟩ := render_all_ok h.2
      exact ⟨_, by rw [renderAll, htext, hitems]; rfl⟩

/-- Members with a written form are written. -/
theorem render_members_ok {literal : String → Prop} {members : List Validator}
    (h : AreMembers literal members) : ∃ lines, renderMembers members = .ok lines := by
  cases members with
  | nil => exact ⟨_, rfl⟩
  | cons m rest =>
      cases m with
      | member name value =>
          obtain ⟨text, htext⟩ := render_ok h.1
          obtain ⟨lines, hlines⟩ := render_members_ok h.2
          exact ⟨_, by rw [renderMembers, htext, hlines]; rfl⟩
      | _ => exact h.elim
end

/-- A module is written when the values of its declarations have a written form. -/
theorem render_module_ok {literal : String → Prop} {m : CheckerModule}
    (h : ∀ d ∈ m.declarations, IsExpression literal d.value) (runtimeModule : String) :
    ∃ text, m.render runtimeModule = .ok text := by
  have hblocks : ∀ ds : List Declaration, (∀ d ∈ ds, IsExpression literal d.value) →
      ∃ blocks, ds.mapM (·.render) = .ok blocks := by
    intro ds hds
    induction ds with
    | nil => exact ⟨[], rfl⟩
    | cons d rest ih =>
        obtain ⟨text, htext⟩ := render_ok (hds d List.mem_cons_self)
        obtain ⟨blocks, hrest⟩ := ih fun e he => hds e (List.mem_cons_of_mem _ he)
        exact ⟨_, by rw [List.mapM_cons, Declaration.render, htext, hrest]; rfl⟩
  obtain ⟨blocks, hrender⟩ := hblocks m.declarations h
  exact ⟨_, by rw [CheckerModule.render, hrender]; rfl⟩

end TypeSuite.Validator
