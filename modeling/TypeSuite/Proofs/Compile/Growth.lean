import TypeSuite.Proofs.Compile.Effects

/-!
# Growth of the exports

Exports only grow during a compilation, and only declarations add to them. `statement_list_exports`
compares the two lists that the statements of a file leave behind: the declarations that were
returned are among the exports that were added, and they are all of them when no declaration occurs
below a statement.
-/

namespace TypeSuite.Compile

open Step (run_bind_of_error run_bind_of_ok run_bind_ok run_pure)

variable {σ : Type} {settings : CompileSettings σ} {allowed : Effect → Prop}

/-- A relation between the exports before and after a run follows from what adding one does. -/
theorem Performs.relates {R : Exports → Exports → Prop} (hrefl : ∀ e, R e e)
    (htrans : ∀ a b c, R a b → R b c → R a c)
    (hadd : allowed .add → ∀ (p : Progress σ) d, R p.exports ((addExport d).run p).2.exports)
    {α : Type} {x : Compile σ α} (h : Performs settings allowed x) (p : Progress σ) :
    R p.exports (x.run p).2.exports := by
  induction h generalizing p with
  | pure | throw | report | read => exact hrefl _
  | @bind _ _ x f _ _ hx hf =>
      cases hrun : x.run p with
      | mk outcome q =>
          have hfirst := hx p
          rw [hrun] at hfirst
          cases outcome with
          | ok a =>
              rw [run_bind_of_ok hrun]
              exact htrans _ _ _ hfirst (hf a q)
          | error e =>
              rw [run_bind_of_error hrun]
              exact hfirst
  | resolveName n =>
      obtain ⟨events, hrun⟩ := run_resolve_name settings n p
      rw [hrun]
      exact hrefl _
  | add d hallowed => exact hadd hallowed p d

/-- Adding an export keeps those that are there. -/
theorem prefix_add_export (p : Progress σ) (d : Declaration) :
    p.exports.entries <+: ((addExport d).run p).2.exports.entries := by
  by_cases h : d.name ∈ p.exports.names
  · have hrun := run_add_export_taken h
    simpa only [hrun] using List.prefix_rfl
  · obtain ⟨exports, hentries, hrun⟩ := run_add_export_fresh h
    rw [hrun, hentries]
    exact List.prefix_append ..

/-- Exports only grow during a run. -/
theorem Performs.grows {α : Type} {x : Compile σ α} (h : Performs settings allowed x)
    (p : Progress σ) : p.exports.entries <+: (x.run p).2.exports.entries :=
  h.relates (R := fun a b => a.entries <+: b.entries) (fun _ => List.prefix_rfl)
    (fun _ _ _ => List.IsPrefix.trans) (fun _ => prefix_add_export) p

/-- A run that may not add to the exports leaves them alone. -/
theorem Performs.keeps (hallowed : ¬ allowed .add) {α : Type} {x : Compile σ α}
    (h : Performs settings allowed x) (p : Progress σ) : (x.run p).2.exports = p.exports :=
  (h.relates (R := Eq) (fun _ => rfl) (fun _ _ _ => Eq.trans) (fun hadd => absurd hadd hallowed)
    p).symm

/-- Everything is permitted for every node. -/
theorem permits_all (n : Node) : Permits (fun _ => True) n :=
  fun _ _ => ⟨fun _ => trivial, fun _ => trivial⟩

/-- A node without declarations needs only to read the exports. -/
theorem permits_read {n : Node} (h : Node.Lacks Node.isDeclaration n) :
    Permits (· = .read) n := by
  intro m hm
  refine ⟨fun _ => rfl, fun hkind => ?_⟩
  rw [h m hm] at hkind
  cases hkind

/-! ## Declarations -/

/-- The compilation of a declaration up to its export. -/
def unexported? (settings : CompileSettings σ) : Node → Option (Compile σ Declaration)
  | .interface name heritage members _ => some do
    let name ← resolveName settings name
    let members ← nodes settings members
    let bases ← nodes settings heritage
    return ⟨name, .iface bases members⟩
  | .alias name type _ => some do
    let name ← resolveName settings name
    let value ← node settings type
    return ⟨name, value⟩
  | _ => none

/-- Exactly the declarations are compiled to an export. -/
theorem is_some_unexported (settings : CompileSettings σ) (n : Node) :
    (unexported? settings n).isSome = Node.isDeclaration n.kind := by
  cases n <;> rfl

/-- A declaration is exported once it is compiled. -/
theorem node_of_unexported {n : Node} {x : Compile σ Declaration}
    (h : unexported? settings n = some x) : node settings n = x >>= addExport := by
  unfold unexported? at h
  split at h
  case h_1 | h_2 =>
    obtain rfl := Option.some.inj h
    simp only [node, bind_assoc, pure_bind]
  case h_3 => cases h

/-- Up to its export, a declaration has the effects of the nodes in its fields. -/
theorem unexported_performs {n : Node} {x : Compile σ Declaration}
    (h : unexported? settings n = some x) (hchild : ∀ c ∈ n.children, Permits allowed c) :
    Performs settings allowed x := by
  unfold unexported? at h
  split at h
  case h_1 name heritage members text =>
    obtain rfl := Option.some.inj h
    have hmembers : Performs settings allowed (nodes settings members) :=
      nodes_performs fun m hm => hchild m (by simp [Node.children, hm])
    have hbases : Performs settings allowed (nodes settings heritage) :=
      nodes_performs fun m hm => hchild m (by simp [Node.children, hm])
    exact .bind (.resolveName name) fun _ => .bind hmembers fun _ => .bind hbases fun _ => .pure _
  case h_2 name type text =>
    obtain rfl := Option.some.inj h
    have htype : Performs settings allowed (node settings type) :=
      node_performs (hchild type (by simp [Node.children]))
    exact .bind (.resolveName name) fun _ => .bind htype fun _ => .pure _
  case h_3 => cases h

/-- A declaration that is compiled is the last export. -/
theorem unexported_exports {x : Compile σ Declaration} {p q : Progress σ} {v : Validator}
    (h : (x >>= addExport).run p = (.ok v, q)) :
    ∃ d, v = d.toValidator ∧ q.exports.entries = (x.run p).2.exports.entries ++ [d] := by
  obtain ⟨d, r, hx, hadd⟩ := run_bind_ok h
  refine ⟨d, yields_add_export d r v q hadd, ?_⟩
  by_cases htaken : d.name ∈ r.exports.names
  · rw [run_add_export_taken htaken] at hadd
    cases hadd
  · obtain ⟨exports, hentries, hrun⟩ := run_add_export_fresh htaken
    rw [hrun, Prod.mk.injEq] at hadd
    rw [hx, ← hadd.2, hentries]

/-- A node either compiles to what a node in one of its fields compiles to, or it is a declaration
itself, or its value is no declaration. -/
theorem node_trichotomy (settings : CompileSettings σ) (n : Node) :
    (∃ c ∈ n.children, node settings n = node settings c) ∨
      (∃ x, unexported? settings n = some x) ∨
      Yields (node settings n) (·.declaration? = none) := by
  cases n with
  | heritage expression => exact .inl ⟨expression, by simp [Node.children], rfl⟩
  | parenthesized type => exact .inl ⟨type, by simp [Node.children], rfl⟩
  | reference name arguments text =>
      match arguments with
      | [] => exact .inr (.inr (yields_pure rfl))
      | [argument] =>
          by_cases h : name.text = settings.wrapper
          · exact .inl ⟨argument, by simp [Node.children], by rw [node, if_pos h]⟩
          · refine .inr (.inr ?_)
            rw [node, if_neg h]
            exact yields_throw _ _
      | _ :: _ :: _ => exact .inr (.inr (yields_throw _ _))
  | interface | «alias» => exact .inr (.inl ⟨_, rfl⟩)
  | identifier | literal | keyword => exact .inr (.inr (yields_pure rfl))
  | stringLiteral | numericLiteral | computedName | unknown =>
      exact .inr (.inr (yields_throw _ _))
  | typeLiteral | array | tuple | union =>
      exact .inr (.inr (yields_bind (yields_any _) fun _ _ => yields_pure rfl))
  | parameter | property | function | sourceFile =>
      exact .inr (.inr (yields_bind (yields_any _) fun _ _ =>
        yields_bind (yields_any _) fun _ _ => yields_pure rfl))
  | method =>
      exact .inr (.inr (yields_bind (yields_any _) fun _ _ =>
        yields_bind (yields_any _) fun _ _ =>
        yields_bind (yields_any _) fun _ _ => yields_pure rfl))

/-- A node that gives a declaration has exported it last. -/
theorem declaration_exported {n : Node} {p q : Progress σ} {v : Validator} {d : Declaration}
    (h : (node settings n).run p = (.ok v, q)) (hd : v.declaration? = some d) :
    ∃ before, p.exports.entries <+: before ∧ q.exports.entries = before ++ [d] := by
  induction n using Node.children_induction with
  | h n ih =>
      obtain ⟨c, hc, hsame⟩ | ⟨x, hx⟩ | hnone := node_trichotomy settings n
      · exact ih c hc (hsame ▸ h)
      · have hperforms : Performs settings (fun _ => True) x :=
          unexported_performs hx fun c _ => permits_all c
        rw [node_of_unexported hx] at h
        obtain ⟨d', rfl, hexports⟩ := unexported_exports h
        obtain rfl : d' = d := Option.some.inj hd
        exact ⟨_, hperforms.grows p, hexports⟩
      · rw [hnone p v q h] at hd
        cases hd

/-- A node without declarations gives none and exports nothing. -/
theorem no_declaration_of_lacks {n : Node} {p q : Progress σ} {v : Validator}
    (hlacks : Node.Lacks Node.isDeclaration n) (h : (node settings n).run p = (.ok v, q)) :
    v.declaration? = none ∧ q.exports = p.exports := by
  have hperforms : Performs settings (· = .read) (node settings n) :=
    node_performs (permits_read hlacks)
  have hkept : q.exports = p.exports := by
    simpa only [h] using hperforms.keeps (by decide) p
  refine ⟨?_, hkept⟩
  cases hv : v.declaration? with
  | none => rfl
  | some d =>
      -- A declaration would be one more export, and there is none.
      obtain ⟨before, hbefore, hlast⟩ := declaration_exported h hv
      have hlength := hbefore.length_le
      rw [← hkept, hlast, List.length_append, List.length_singleton] at hlength
      omega

/-- A statement exports the declaration that it gives, and it exports nothing else when no
declaration occurs below it. -/
theorem statement_exports {n : Node} {p q : Progress σ} {v : Validator}
    (h : (node settings n).run p = (.ok v, q)) :
    ∃ added, q.exports.entries = p.exports.entries ++ added ∧
      v.declaration?.toList.Sublist added ∧
      ((∀ m, Node.OccursBelow m n → Node.isDeclaration m.kind = false) →
        v.declaration?.toList = added) := by
  have hperforms : Performs settings (fun _ => True) (node settings n) :=
    node_performs (permits_all n)
  have hgrows := hperforms.grows p
  rw [h] at hgrows
  obtain ⟨added, hadded⟩ := hgrows
  refine ⟨added, hadded.symm, ?_, fun hbelow => ?_⟩
  · cases hv : v.declaration? with
    | none => exact List.nil_sublist _
    | some d =>
        obtain ⟨before, ⟨between, hbefore⟩, hlast⟩ := declaration_exported h hv
        rw [hlast, ← hbefore, List.append_assoc, List.append_cancel_left_eq] at hadded
        rw [hadded]
        exact List.sublist_append_right ..
  -- What is below the statement adds nothing, so a declaration is the only export of its own.
  · cases hn : unexported? settings n with
    | some x =>
        have hperforms : Performs settings (· = .read) x := unexported_performs hn fun c hc =>
          permits_read fun m hm => hbelow m ⟨c, hc, hm⟩
        rw [node_of_unexported hn] at h
        obtain ⟨d, rfl, hlast⟩ := unexported_exports h
        rw [hperforms.keeps (by decide), hadded.symm, List.append_cancel_left_eq] at hlast
        exact hlast.symm
    | none =>
        have hkind : Node.isDeclaration n.kind = false := by
          rw [← is_some_unexported settings, hn]
          rfl
        obtain ⟨hnone, hkept⟩ := no_declaration_of_lacks (Node.lacks_of_below hkind hbelow) h
        rw [hnone]
        simpa [hkept] using hadded.symm

/-- The statements of a file export the declarations that they give, in order, and they export
nothing else when no declaration occurs below one of them. -/
theorem statement_list_exports {fileName : String} {ns : List Node} {p q : Progress σ}
    {ds : List Declaration} (h : (statementList settings fileName ns).run p = (.ok ds, q)) :
    ∃ added, q.exports.entries = p.exports.entries ++ added ∧ ds.Sublist added ∧
      ((∀ n ∈ ns, ∀ m, Node.OccursBelow m n → Node.isDeclaration m.kind = false) →
        ds = added) := by
  induction ns generalizing p ds with
  | nil =>
      rw [statementList, run_pure, Prod.mk.injEq, Except.ok.injEq] at h
      obtain ⟨rfl, rfl⟩ := h
      exact ⟨[], by simp, .slnil, fun _ => rfl⟩
  | cons n rest ih =>
      rw [statementList] at h
      split at h
      case isTrue =>
        obtain ⟨v, r, hnode, h⟩ := run_bind_ok h
        obtain ⟨others, s, hrest, h⟩ := run_bind_ok h
        rw [run_pure, Prod.mk.injEq, Except.ok.injEq] at h
        obtain ⟨rfl, rfl⟩ := h
        obtain ⟨first, hfirst, hgiven, honly⟩ := statement_exports hnode
        obtain ⟨later, hlater, hothers, hflat⟩ := ih hrest
        refine ⟨first ++ later, ?_, hgiven.append hothers, ?_⟩
        · rw [hlater, hfirst, List.append_assoc]
        · intro hbelow
          rw [honly (hbelow n List.mem_cons_self),
            hflat fun m hm => hbelow m (List.mem_cons_of_mem _ hm)]
      case isFalse =>
        obtain ⟨⟨⟩, r, hreport, h⟩ := run_bind_ok h
        cases hreport
        obtain ⟨added, hadded, hsub, hflat⟩ := ih h
        exact ⟨added, hadded, hsub, fun hbelow =>
          hflat fun m hm => hbelow m (List.mem_cons_of_mem _ hm)⟩

end TypeSuite.Compile
