import TypeSuite.Proofs.Compile.Growth
import TypeSuite.Proofs.Compile.Session
import TypeSuite.Proofs.Node.Role

/-!
# Single statements

`alone` is what a statement compiles to on its own, with the resolver of declared names.
`statement_run` says that it compiles to the same wherever it stands in a file, unless the name of
its declaration is taken, for statements without declarations and source files below them.
-/

namespace TypeSuite.Compile

open Step (run_bind_of_error run_bind_of_ok run_bind_ok)

variable {settings : CompileSettings Resolver.Cache} {n : Node} {p : Progress Resolver.Cache}

/-- What a statement compiles to on its own: the declaration that it gives, if it gives one. -/
def alone (settings : CompileSettings Resolver.Cache) (n : Node) :
    Except CompileError (Option Declaration) :=
  ((node settings n).run (.start [])).1.map (·.declaration?)

/-- The name under which a declaration is exported. -/
def exportName? (settings : CompileSettings Resolver.Cache) : Node → Option String
  | .interface name _ _ _ => some ((Resolver.declaredName? name).getD settings.fallback)
  | .alias name _ _ => some ((Resolver.declaredName? name).getD settings.fallback)
  | _ => none

/-- Nothing at all is permitted for a node without declarations and source files. -/
theorem permits_none (h : Node.Lacks Node.isTopLevel n) : Permits (fun _ => False) n := by
  intro m hm
  obtain ⟨hdeclaration, hfile⟩ := Node.is_top_level_eq_false_iff.mp (h m hm)
  exact ⟨hfile, fun hkind => absurd (hkind.symm.trans hdeclaration) (by decide)⟩

/-- The run of a statement: it fails as it does alone, or it gives and exports nothing, or the name
of its declaration is taken, or it exports its declaration. -/
inductive StatementRun (settings : CompileSettings Resolver.Cache) (n : Node)
    (p : Progress Resolver.Cache) :
    Except CompileError Validator × Progress Resolver.Cache → Prop where
  | fails (e : CompileError) (q : Progress Resolver.Cache) :
      alone settings n = .error e → StatementRun settings n p (.error e, q)
  | silent (v : Validator) (q : Progress Resolver.Cache) :
      alone settings n = .ok none → exportName? settings n = none → v.declaration? = none →
      q.exports = p.exports → q.session.IsFaithful → StatementRun settings n p (.ok v, q)
  | taken (d : Declaration) (q : Progress Resolver.Cache) :
      alone settings n = .ok (some d) → exportName? settings n = some d.name →
      d.name ∈ p.exports.names →
      StatementRun settings n p (.error (.duplicateExport d.name), q)
  | exported (d : Declaration) (q : Progress Resolver.Cache) :
      alone settings n = .ok (some d) → exportName? settings n = some d.name →
      d.name ∉ p.exports.names → q.exports.entries = p.exports.entries ++ [d] →
      q.session.IsFaithful → StatementRun settings n p (.ok d.toValidator, q)

/-- A declaration gets the name under which it is exported. -/
theorem unexported_name (hresolver : settings.resolver = Resolver.declared)
    {x : Compile Resolver.Cache Declaration} (h : unexported? settings n = some x)
    (hp : p.session.IsFaithful) {d : Declaration} {q : Progress Resolver.Cache}
    (hrun : x.run p = (.ok d, q)) : exportName? settings n = some d.name := by
  unfold unexported? at h
  split at h
  case h_1 name bases members text =>
    obtain rfl := Option.some.inj h
    obtain ⟨resolved, r, hname, hrun⟩ := run_bind_ok hrun
    obtain ⟨ms, r', -, hrun⟩ := run_bind_ok hrun
    obtain ⟨bs, r'', -, hrun⟩ := run_bind_ok hrun
    cases hrun
    have hsettled := (settles_resolve_name hresolver name p hp).1
    rw [hname] at hsettled
    exact congrArg some (Except.ok.inj hsettled).symm
  case h_2 name type text =>
    obtain rfl := Option.some.inj h
    obtain ⟨resolved, r, hname, hrun⟩ := run_bind_ok hrun
    obtain ⟨value, r', -, hrun⟩ := run_bind_ok hrun
    cases hrun
    have hsettled := (settles_resolve_name hresolver name p hp).1
    rw [hname] at hsettled
    exact congrArg some (Except.ok.inj hsettled).symm
  case h_3 => cases h

/-- The run of a declaration whose fields hold no declarations and source files. -/
theorem declaration_run (hresolver : settings.resolver = Resolver.declared)
    (hbelow : ∀ m, Node.OccursBelow m n → Node.isTopLevel m.kind = false)
    {x : Compile Resolver.Cache Declaration} (h : unexported? settings n = some x)
    (hp : p.session.IsFaithful) : StatementRun settings n p ((node settings n).run p) := by
  have hperforms : Performs settings (fun _ => False) x := unexported_performs h fun c hc =>
    permits_none fun m hm => hbelow m ⟨c, hc, hm⟩
  obtain ⟨outcome, hx⟩ := hperforms.settles hresolver
  obtain ⟨hstart, hempty, -⟩ := hx (.start []) Resolver.faithful_nil
  obtain ⟨hhere, hkept, hq⟩ := hx p hp
  have halone : alone settings n = ((x >>= addExport).run (.start [])).1.map (·.declaration?) := by
    rw [alone, node_of_unexported h]
  rw [node_of_unexported h]
  cases hrun : x.run p with
  | mk result q =>
      cases hfirst : x.run (.start []) with
      | mk first r =>
          rw [hrun] at hhere hkept hq
          rw [hfirst] at hstart hempty
          obtain rfl : result = outcome := hhere
          obtain rfl : first = result := hstart
          cases first with
          | error e =>
              rw [run_bind_of_error hfirst] at halone
              rw [run_bind_of_error hrun]
              exact .fails e q halone
          | ok d =>
              have hname := unexported_name hresolver h hp hrun
              have hfresh : d.name ∉ r.exports.names := by
                rw [hempty]
                exact List.not_mem_nil
              obtain ⟨exports, -, hadd⟩ := run_add_export_fresh hfresh
              rw [run_bind_of_ok hfirst, hadd] at halone
              rw [run_bind_of_ok hrun]
              -- Up to here both runs agree; only the export depends on the names that are taken.
              by_cases htaken : d.name ∈ q.exports.names
              · rw [run_add_export_taken htaken]
                exact .taken d q halone hname (hkept ▸ htaken)
              · obtain ⟨exports, hentries, hadd⟩ := run_add_export_fresh htaken
                rw [hadd]
                exact .exported d _ halone hname (hkept ▸ htaken) (hkept ▸ hentries) hq

/-- Without its value, the run of a statement that is no declaration has one outcome. -/
theorem settles_without_value (hresolver : settings.resolver = Resolver.declared)
    (hkind : Node.isDeclaration n.kind = false)
    (hbelow : ∀ m, Node.OccursBelow m n → Node.isTopLevel m.kind = false) :
    ∃ outcome, Settles (node settings n >>= fun _ => pure ()) outcome := by
  -- The value of a source file holds the exports so far; all else has the same value everywhere.
  by_cases hfile : n.kind = .sourceFile
  · cases n with
    | sourceFile fileName statements text =>
        have hperforms : Performs settings (fun _ => False)
            (statementList settings fileName statements) :=
          statement_list_performs fileName fun c hc =>
            permits_none fun m hm => hbelow m ⟨c, hc, hm⟩
        obtain ⟨outcome, hsettles⟩ := hperforms.settles hresolver
        have hread : Settles ((get : Compile Resolver.Cache (Progress Resolver.Cache)) >>=
            fun _ => pure ()) (.ok ()) := fun p hp => ⟨rfl, rfl, hp⟩
        simp only [node, bind_assoc, pure_bind]
        exact ⟨_, settles_bind hsettles fun _ => hread⟩
    | _ => cases hfile
  · have htop : Node.isTopLevel n.kind = false :=
      Node.is_top_level_eq_false_iff.mpr ⟨hkind, hfile⟩
    have hperforms : Performs settings (fun _ => False) (node settings n) :=
      node_performs (permits_none (Node.lacks_of_below htop hbelow))
    obtain ⟨outcome, hsettles⟩ := hperforms.settles hresolver
    exact ⟨_, settles_bind hsettles fun _ _ hp => ⟨rfl, rfl, hp⟩⟩

/-- What runs without its value tells whether the node succeeds. -/
theorem run_without_value {outcome : Except CompileError Unit}
    (h : Settles (node settings n >>= fun _ => pure ()) outcome) (hp : p.session.IsFaithful) :
    (∃ e q, outcome = .error e ∧ (node settings n).run p = (.error e, q)) ∨
      ∃ v q, outcome = .ok () ∧ (node settings n).run p = (.ok v, q) ∧ q.session.IsFaithful := by
  obtain ⟨houtcome, -, hq⟩ := h p hp
  cases hrun : (node settings n).run p with
  | mk result q =>
      cases result with
      | error e =>
          rw [run_bind_of_error hrun] at houtcome
          exact .inl ⟨e, q, houtcome.symm, rfl⟩
      | ok v =>
          rw [run_bind_of_ok hrun] at houtcome hq
          exact .inr ⟨v, q, houtcome.symm, rfl, hq⟩

/-- The run of a statement whose fields hold no declarations and source files is told by what the
statement compiles to alone and by the names that are taken. -/
theorem statement_run (hresolver : settings.resolver = Resolver.declared)
    (hbelow : ∀ m, Node.OccursBelow m n → Node.isTopLevel m.kind = false)
    (hp : p.session.IsFaithful) : StatementRun settings n p ((node settings n).run p) := by
  cases hn : unexported? settings n with
  | some x => exact declaration_run hresolver hbelow hn hp
  | none =>
      have hkind : Node.isDeclaration n.kind = false := by
        rw [← is_some_unexported settings, hn]
        rfl
      have hname : exportName? settings n = none := by
        cases n <;> first | rfl | cases hkind
      have hlacks : Node.Lacks Node.isDeclaration n :=
        Node.lacks_of_below hkind fun m hm => (Node.is_top_level_eq_false_iff.mp (hbelow m hm)).1
      obtain ⟨outcome, hsettles⟩ := settles_without_value hresolver hkind hbelow
      obtain ⟨e, q, rfl, hrun⟩ | ⟨v, q, rfl, hrun, hq⟩ := run_without_value hsettles hp
      · obtain ⟨e', r, he, hstart⟩ | ⟨v', r, hok, -⟩ :=
          run_without_value (p := .start []) hsettles Resolver.faithful_nil
        · rw [hrun]
          refine .fails e q ?_
          rw [alone, hstart, Except.error.inj he]
          rfl
        · cases hok
      · obtain ⟨e', r, he, -⟩ | ⟨v', r, -, hstart, -⟩ :=
          run_without_value (p := .start []) hsettles Resolver.faithful_nil
        · cases he
        · obtain ⟨hnone, hkept⟩ := no_declaration_of_lacks hlacks hrun
          rw [hrun]
          refine .silent v q ?_ hname hnone hkept hq
          rw [alone, hstart]
          exact congrArg Except.ok (no_declaration_of_lacks hlacks hstart).1

/-- A statement that compiles alone gives a declaration under the name that it exports. -/
theorem name_alone (hresolver : settings.resolver = Resolver.declared)
    (hbelow : ∀ m, Node.OccursBelow m n → Node.isTopLevel m.kind = false)
    {d : Option Declaration} (h : alone settings n = .ok d) :
    d.map (·.name) = exportName? settings n := by
  have hrun := statement_run hresolver hbelow (p := .start []) Resolver.faithful_nil
  cases hresult : (node settings n).run (.start []) with
  | mk result q =>
      rw [hresult] at hrun
      cases hrun with
      | fails e q hfails =>
          rw [h] at hfails
          cases hfails
      | silent v q halone hname =>
          rw [h] at halone
          rw [Except.ok.inj halone, hname]
          rfl
      | taken d' q _ _ htaken => exact absurd htaken List.not_mem_nil
      | exported d' q halone hname =>
          rw [h] at halone
          rw [Except.ok.inj halone, hname]
          rfl

/-- A statement that compiles alone compiles to the same behind names that it does not export, and
adds its declaration to the exports. -/
theorem statement_run_of_alone (hresolver : settings.resolver = Resolver.declared)
    (hbelow : ∀ m, Node.OccursBelow m n → Node.isTopLevel m.kind = false)
    (hp : p.session.IsFaithful) {d : Option Declaration} (h : alone settings n = .ok d)
    (hfresh : ∀ name ∈ exportName? settings n, name ∉ p.exports.names) :
    ∃ v q, (node settings n).run p = (.ok v, q) ∧ v.declaration? = d ∧
      q.exports.entries = p.exports.entries ++ d.toList ∧ q.session.IsFaithful := by
  have hrun := statement_run hresolver hbelow hp
  cases hresult : (node settings n).run p with
  | mk result q =>
      rw [hresult] at hrun
      cases hrun with
      | fails e q hfails =>
          rw [h] at hfails
          cases hfails
      | silent v q hsilent _ hnone hkept hq =>
          rw [h] at hsilent
          obtain rfl := Except.ok.inj hsilent
          exact ⟨v, q, rfl, hnone, by rw [hkept]; simp, hq⟩
      | taken d' q _ hname htaken => exact absurd htaken (hfresh _ hname)
      | exported d' q hgiven _ _ hentries hq =>
          rw [h] at hgiven
          obtain rfl := Except.ok.inj hgiven
          exact ⟨_, q, rfl, rfl, hentries, hq⟩

end TypeSuite.Compile
