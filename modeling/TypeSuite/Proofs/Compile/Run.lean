import TypeSuite.Compile.Basic
import TypeSuite.Proofs.Step.Run

/-!
# Runs of compilation steps

A run takes a progress to an outcome and a further progress. `run_resolve_name`,
`run_add_export_taken` and `run_add_export_fresh` say what the steps with an effect do, and `Yields`
what holds of the value of every run that succeeds.
-/

namespace TypeSuite.Compile

open Step (run_bind_of_ok run_bind_ok run_pure run_throw)

variable {σ α β : Type}

/-- Asking the resolver changes its memory only. -/
theorem run_ask (settings : CompileSettings σ) (n : Node) (p : Progress σ) :
    (ask settings n).run p = (.ok ((settings.resolver n).run p.session).1,
      { p with session := ((settings.resolver n).run p.session).2 }) :=
  rfl

/-- Resolving a name always gives one, the answer of the resolver or else the fallback. It changes
the memory of the resolver and the reports only. -/
theorem run_resolve_name (settings : CompileSettings σ) (n : Node) (p : Progress σ) :
    ∃ events, (resolveName settings n).run p =
      (.ok (((settings.resolver n).run p.session).1.getD settings.fallback),
        ⟨((settings.resolver n).run p.session).2, p.exports, events⟩) := by
  rw [resolveName, run_bind_of_ok (run_ask settings n p)]
  cases ((settings.resolver n).run p.session).1 with
  | none => exact ⟨_, rfl⟩
  | some name => exact ⟨_, rfl⟩

/-- A declaration whose name is taken is refused without a change. -/
theorem run_add_export_taken {d : Declaration} {p : Progress σ} (h : d.name ∈ p.exports.names) :
    (addExport d).run p = (.error (.duplicateExport d.name), p) := by
  have hadd : p.exports.add d = .error (.duplicateExport d.name) := Exports.add_of_mem h
  have hget : (get : Compile σ (Progress σ)).run p = (.ok p, p) := rfl
  rw [addExport, run_bind_of_ok hget, hadd]
  rfl

/-- A declaration whose name is not taken is added behind the others. -/
theorem run_add_export_fresh {d : Declaration} {p : Progress σ} (h : d.name ∉ p.exports.names) :
    ∃ exports : Exports, exports.entries = p.exports.entries ++ [d] ∧
      (addExport d).run p = (.ok d.toValidator, { p with exports }) := by
  have hget : (get : Compile σ (Progress σ)).run p = (.ok p, p) := rfl
  obtain ⟨exports, hadd, hentries⟩ := Exports.add_of_not_mem h
  refine ⟨exports, hentries, ?_⟩
  rw [addExport, run_bind_of_ok hget, hadd]
  rfl

/-! ## Values of successful runs -/

/-- Every run that succeeds gives a value with a property. -/
def Yields (x : Compile σ α) (holds : α → Prop) : Prop :=
  ∀ p a q, x.run p = (.ok a, q) → holds a

/-- A finished value has the properties it has. -/
theorem yields_pure {a : α} {holds : α → Prop} (h : holds a) :
    Yields (pure a : Compile σ α) holds := by
  intro p b q hrun
  rw [run_pure, Prod.mk.injEq, Except.ok.injEq] at hrun
  exact hrun.1 ▸ h

/-- A failure gives no value. -/
theorem yields_throw (e : CompileError) (holds : α → Prop) :
    Yields (throw e : Compile σ α) holds := by
  intro p b q hrun
  rw [run_throw] at hrun
  cases hrun

/-- The value of a step hands its property to the step behind it. -/
theorem yields_bind {x : Compile σ α} {f : α → Compile σ β} {first : α → Prop}
    {second : β → Prop} (hx : Yields x first) (hf : ∀ a, first a → Yields (f a) second) :
    Yields (x >>= f) second := by
  intro p b r hrun
  obtain ⟨a, q, hfirst, hsecond⟩ := run_bind_ok hrun
  exact hf a (hx p a q hfirst) q b r hsecond

/-- Every computation gives values of which nothing is said. -/
theorem yields_any (x : Compile σ α) : Yields x fun _ => True :=
  fun _ _ _ _ => trivial

/-- An exported declaration is given back as it is. -/
theorem yields_add_export (d : Declaration) :
    Yields (addExport d : Compile σ Validator) (· = d.toValidator) := by
  intro p v q hrun
  by_cases h : d.name ∈ p.exports.names
  · rw [run_add_export_taken h] at hrun
    cases hrun
  · obtain ⟨exports, -, hadd⟩ := run_add_export_fresh h
    rw [hadd, Prod.mk.injEq, Except.ok.injEq] at hrun
    exact hrun.1.symm

end TypeSuite.Compile
