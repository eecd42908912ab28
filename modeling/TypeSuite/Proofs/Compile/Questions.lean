import TypeSuite.Proofs.Compile.Parallel

/-!
# Questions to the resolver

A recording resolver keeps the nodes that it is asked for, and `asked` is what it is asked in the
compilation of a file. `Parallel.recorded` says that recording changes nothing else about a
computation that takes the same steps with it, and `recorded_node` says so of a node. What is
recorded are thus the questions of the compilation with the resolver itself.
-/

namespace TypeSuite

/-- A resolver that answers as another one and keeps the nodes that it is asked for, in order. -/
def Resolver.recording {σ : Type} (resolver : Resolver σ) : Resolver (σ × List Node) :=
  fun n memory =>
    let (answer, next) := (resolver n).run memory.1
    (answer, (next, memory.2 ++ [n]))

/-- Settings with a recording resolver. -/
def CompileSettings.recording {σ : Type} (settings : CompileSettings σ) :
    CompileSettings (σ × List Node) :=
  ⟨settings.resolver.recording, settings.fallback, settings.wrapper⟩

/-- A progress with an empty record. -/
def Progress.recording {σ : Type} (p : Progress σ) : Progress (σ × List Node) :=
  ⟨(p.session, []), p.exports, p.events⟩

namespace Validator

mutual
/-- Renaming by the identity changes nothing. -/
theorem rename_id (v : Validator) : v.rename id = v := by
  cases v with
  | ref | literal | plain => rfl
  | opt inner | array inner => rw [rename, rename_id inner]
  | param name type optional => rw [rename, rename_id type, id]
  | func result params => rw [rename, rename_id result, rename_all_id params]
  | iface bases members => rw [rename, rename_all_id bases, rename_all_id members]
  | tuple vs | union vs => rw [rename, rename_all_id vs]
  | member name value | declaration name value => rw [rename, rename_id value, id]
  | module fileName declarations manifest =>
      rw [rename, rename_all_id declarations, rename_all_id manifest]

/-- Renaming by the identity changes no list. -/
theorem rename_all_id (vs : List Validator) : renameAll id vs = vs := by
  cases vs with
  | nil => rfl
  | cons v rest => rw [renameAll, rename_id v, rename_all_id rest]
end

end Validator

/-- Renaming by the identity changes no declaration. -/
theorem Declaration.rename_id (d : Declaration) : d.rename id = d := by
  rw [rename, d.value.rename_id, id]

namespace Compile

variable {σ α : Type} {settings : CompileSettings σ}

/-- The nodes that the resolver is asked for in the compilation of a file, in order. -/
def asked (settings : CompileSettings σ) (f : SourceFile) (p : Progress σ) : List Node :=
  ((file settings.recording f).run p.recording).2.session.2

/-- A progress with a record is another one but for the record and the reports. -/
structure Records (p : Progress σ) (q : Progress (σ × List Node)) : Prop where
  session : q.session.1 = p.session
  entries : q.exports.entries = p.exports.entries

/-- A recording resolver answers as the resolver itself, and nothing but the record and the reports
tells the progress with it from the one without. -/
theorem keeps_records : Keeps settings settings.recording id Records False where
  exports hpq := congrArg (List.map (Declaration.rename id)) hpq.entries.symm
  resolveName {p q} n hpq := by
    obtain ⟨events, hleft⟩ := run_resolve_name settings n p
    obtain ⟨events', hright⟩ := run_resolve_name settings.recording n q
    rw [hleft, hright]
    have hanswer : ((settings.recording.resolver n).run q.session).1 =
        ((settings.resolver n).run p.session).1 := hpq.session ▸ rfl
    refine .values (congrArg (Option.getD · settings.fallback) hanswer.symm) ⟨?_, hpq.entries⟩
    exact congrArg (fun memory => ((settings.resolver n).run memory).2) hpq.session
  report _ hpq := .values rfl ⟨hpq.session, hpq.entries⟩
  add {p q d e} hsame hpq := by
    obtain rfl : d = e := by rwa [d.rename_id, e.rename_id] at hsame
    have hnames : q.exports.names = p.exports.names := congrArg (List.map _) hpq.entries
    by_cases htaken : d.name ∈ p.exports.names
    · rw [run_add_export_taken htaken, run_add_export_taken (hnames ▸ htaken)]
      exact .errors _ hpq
    · obtain ⟨left, hleft, hrunLeft⟩ := run_add_export_fresh htaken
      obtain ⟨right, hright, hrunRight⟩ := run_add_export_fresh (p := q) (hnames ▸ htaken)
      rw [hrunLeft, hrunRight]
      refine .values rfl ⟨hpq.session, ?_⟩
      show right.entries = left.entries
      rw [hleft, hright, hpq.entries]

/-- Of two computations that take the same steps and whose values are related only if they are
equal, the one with a recording resolver runs as the other but for its record. -/
theorem Parallel.recorded {R : α → α → Prop} {x : Compile σ α} {y : Compile (σ × List Node) α}
    (h : Parallel settings settings.recording id R x y) (hvalue : ∀ a b, R a b → b = a)
    (p : Progress σ) :
    (y.run p.recording).1 = (x.run p).1 ∧
      (y.run p.recording).2.session.1 = (x.run p).2.session := by
  have hagree := h.agree keeps_records (p := p) (q := p.recording) ⟨rfl, rfl⟩
  cases hrun : x.run p with
  | mk o p' =>
      cases hrecorded : y.run p.recording with
      | mk o' q' =>
          rw [hrun, hrecorded] at hagree
          cases hagree with
          | values hsame hkept => exact ⟨congrArg Except.ok (hvalue _ _ hsame), hkept.session⟩
          | errors e hkept => exact ⟨rfl, hkept.session⟩
          | takenFirst _ _ _ hexcused | takenSecond _ _ _ hexcused => exact hexcused.elim

/-- Recording the questions in the compilation of a node changes nothing else. -/
theorem recorded_node (settings : CompileSettings σ) (n : Node) (p : Progress σ) :
    ((node settings.recording n).run p.recording).1 = ((node settings n).run p).1 ∧
      ((node settings.recording n).run p.recording).2.session.1 =
        ((node settings n).run p).2.session := by
  have hwrapper : settings.wrapper = settings.recording.wrapper := rfl
  refine (node_parallel hwrapper n).recorded (fun v w hsame => ?_) p
  rw [← v.rename_id, ← w.rename_id, show v.rename id = w.rename id from hsame]

end Compile

end TypeSuite
