import TypeSuite.Proofs.Compile.Files
import TypeSuite.Proofs.Compile.Supported

/-!
# Refused statements

A statement is refused for the first node below it that is not supported, or for a name that is
exported already. `file_outcome` says so of files whose statements fit their role: such a file is
compiled, or its first refused statement decides the error.
-/

namespace TypeSuite

namespace Node

/-- The nodes that are compiled below a node, in the order of their compilation. -/
def evaluatedBelow (wrapper : String) (n : Node) : List Node :=
  (n.evaluatedFields wrapper).flatMap (evaluated wrapper)

/-- Below a statement without a rule, nothing is compiled. -/
theorem evaluated_below_of_unhandled (wrapper : String) {n : Node} (h : n.kind.isHandled = false) :
    n.evaluatedBelow wrapper = [] := by
  cases n <;> first | rfl | cases h

/-- A statement with a rule that fits its role is a declaration. -/
theorem Fits.is_declaration {n : Node} (h : Fits .statement n)
    (hhandled : n.kind.isHandled = true) : isDeclaration n.kind = true := by
  cases h with
  | unknown => cases hhandled
  | interface | typeAlias => rfl

end Node

namespace Compile

open Node (Fits evaluatedBelow firstBlame)
open Step (run_bind_of_error run_bind_of_ok)

section

variable {σ : Type} {settings : CompileSettings σ} {n : Node}

/-- Up to its export, a declaration ends as the first node below it that is not supported. -/
theorem unexported_ends {x : Compile σ Declaration} (h : unexported? settings n = some x)
    (hbelow : ∀ m, Node.OccursBelow m n → Node.isTopLevel m.kind = false) :
    Ends x (firstBlame settings.wrapper (n.evaluatedFields settings.wrapper)) := by
  have hchild : ∀ c ∈ n.children, Ends (node settings c) (firstBlame settings.wrapper [c]) :=
    fun c hc => node_ends fun m hm => hbelow m ⟨c, hc, hm⟩
  unfold unexported? at h
  split at h
  case h_1 name bases members text =>
    obtain rfl := Option.some.inj h
    refine ends_resolve_name fun _ => ?_
    rw [Node.evaluatedFields, Node.first_blame_append]
    refine ends_bind (nodes_end fun m hm => hchild m (by simp [Node.children, hm])) fun _ => ?_
    exact ends_map (nodes_end fun m hm => hchild m (by simp [Node.children, hm]))
  case h_2 name type text =>
    obtain rfl := Option.some.inj h
    exact ends_resolve_name fun _ => ends_map (hchild type (by simp [Node.children]))
  case h_3 => cases h

end

variable {settings : CompileSettings Resolver.Cache} {n : Node}

/-- Alone, a declaration ends as the first node below it that is not supported. -/
theorem alone_of_declaration (hresolver : settings.resolver = Resolver.declared)
    (hkind : Node.isDeclaration n.kind = true)
    (hbelow : ∀ m, Node.OccursBelow m n → Node.isTopLevel m.kind = false) :
    failure? (alone settings n) =
      firstBlame settings.wrapper (n.evaluatedFields settings.wrapper) := by
  obtain ⟨x, hx⟩ := Option.isSome_iff_exists.mp ((is_some_unexported settings n).trans hkind)
  have hends := unexported_ends hx hbelow (.start [])
  have hperforms : Performs settings (fun _ => False) x := unexported_performs hx fun c hc =>
    permits_none fun m hm => hbelow m ⟨c, hc, hm⟩
  obtain ⟨outcome, hsettles⟩ := hperforms.settles hresolver
  obtain ⟨-, hempty, -⟩ := hsettles (.start []) Resolver.faithful_nil
  rw [← hends, alone, node_of_unexported hx]
  cases hrun : x.run (.start []) with
  | mk result p =>
      cases result with
      | error e =>
          rw [run_bind_of_error hrun]
          rfl
      | ok d =>
          -- Nothing has been exported before, so the name of the declaration is not taken.
          rw [hrun] at hempty
          have hfresh : d.name ∉ p.exports.names := by
            rw [hempty]
            exact List.not_mem_nil
          obtain ⟨exports, -, hadd⟩ := run_add_export_fresh hfresh
          rw [run_bind_of_ok hrun, hadd]
          rfl

/-- Why a statement is refused behind others that export certain names: for the first node below it
that is not supported, or for a name that it exports once more. -/
inductive Refuses (settings : CompileSettings Resolver.Cache) (taken : List String) (n : Node) :
    CompileError → Prop where
  | unsupported {before after : List Node} {m : Node} :
      n.evaluatedBelow settings.wrapper = before ++ m :: after →
      (∀ x ∈ before, x.isSupported settings.wrapper = true) →
      m.isSupported settings.wrapper = false → Refuses settings taken n m.blame
  | repeated {name : String} :
      (∀ m ∈ n.evaluatedBelow settings.wrapper, m.isSupported settings.wrapper = true) →
      exportName? settings n = some name → name ∈ taken →
      Refuses settings taken n (.duplicateExport name)

/-- Statements below which all compiled nodes are supported, and which export distinct names. -/
structure AreAccepted (settings : CompileSettings Resolver.Cache) (ns : List Node) : Prop where
  supported : ∀ n ∈ ns, ∀ m ∈ n.evaluatedBelow settings.wrapper,
    m.isSupported settings.wrapper = true
  distinct : (exportNames settings ns).Nodup

/-- A statement that fits its role is refused for the first node below it that is not supported, or
else for a name that is exported already. -/
theorem offence_eq (hresolver : settings.resolver = Resolver.declared) (hfits : Fits .statement n)
    (taken : List String) :
    offence? settings taken n =
      (firstBlame settings.wrapper (n.evaluatedFields settings.wrapper)).or
        ((exportName? settings n).bind fun name =>
          if name ∈ taken then some (.duplicateExport name) else none) := by
  cases hhandled : n.kind.isHandled with
  | false =>
      have hnone : firstBlame settings.wrapper (n.evaluatedFields settings.wrapper) = none := by
        rw [Node.first_blame_none_iff]
        show ∀ m ∈ n.evaluatedBelow settings.wrapper, _
        rw [Node.evaluated_below_of_unhandled _ hhandled]
        exact nofun
      rw [offence?, hhandled, if_neg Bool.false_ne_true, hnone, export_name_of_unhandled hhandled]
      rfl
  | true =>
      have halone := alone_of_declaration hresolver (hfits.is_declaration hhandled)
        fun m hm => hfits.lacks_below hm
      rw [offence?, if_pos hhandled, ← halone]
      cases alone settings n <;> rfl

/-- Exactly for these reasons a statement that fits its role is refused. -/
theorem offence_iff (hresolver : settings.resolver = Resolver.declared) (hfits : Fits .statement n)
    {taken : List String} {e : CompileError} :
    offence? settings taken n = some e ↔ Refuses settings taken n e := by
  rw [offence_eq hresolver hfits, Option.or_eq_some_iff, Node.first_blame_some_iff,
    Node.first_blame_none_iff]
  constructor
  · rintro (⟨before, m, after, hsplit, hbefore, hm, rfl⟩ | ⟨hall, htaken⟩)
    · exact .unsupported hsplit hbefore hm
    · obtain ⟨name, hname, hif⟩ := Option.bind_eq_some_iff.mp htaken
      split at hif
      case isTrue hmem => exact Option.some.inj hif ▸ .repeated hall hname hmem
      case isFalse => cases hif
  · intro h
    cases h with
    | unsupported hsplit hbefore hm => exact .inl ⟨_, _, _, hsplit, hbefore, hm, rfl⟩
    | repeated hall hname hmem =>
        exact .inr ⟨hall, Option.bind_eq_some_iff.mpr ⟨_, hname, if_pos hmem⟩⟩

/-- Statements that fit their role are compatible if and only if they are accepted. -/
theorem compatible_iff (hresolver : settings.resolver = Resolver.declared) {ns : List Node}
    (hfits : ∀ n ∈ ns, Fits .statement n) : Compatible settings ns ↔ AreAccepted settings ns := by
  have halone : ∀ n ∈ ns, (n.kind.isHandled = true → ∃ d, alone settings n = .ok d) ↔
      ∀ m ∈ n.evaluatedBelow settings.wrapper, m.isSupported settings.wrapper = true := by
    intro n hn
    cases hhandled : n.kind.isHandled with
    | false =>
        rw [Node.evaluated_below_of_unhandled _ hhandled]
        exact iff_of_true nofun nofun
    | true =>
        have hends := alone_of_declaration hresolver ((hfits n hn).is_declaration hhandled)
          fun m hm => (hfits n hn).lacks_below hm
        rw [evaluatedBelow, ← Node.first_blame_none_iff, ← hends]
        cases alone settings n <;> simp [failure?]
  constructor
  · exact fun h => ⟨fun n hn => (halone n hn).mp (h.alone n hn), h.distinct⟩
  · exact fun h => ⟨fun n hn => (halone n hn).mpr (h.supported n hn), h.distinct⟩

/-- A file whose statements fit their role compiles if they are accepted, to what they compile to
alone. Else one of them is refused behind others that are accepted, and it decides the error. -/
theorem file_outcome (hresolver : settings.resolver = Resolver.declared)
    {session : Resolver.Cache} (hsession : session.IsFaithful) {f : SourceFile}
    (hfits : ∀ n ∈ f.statements, Fits .statement n) :
    (AreAccepted settings f.statements ∧ ((file settings f).run (.start session)).1 =
      .ok ⟨f.fileName, declarationsAlone settings f.statements,
        declarationsAlone settings f.statements⟩) ∨
    ∃ before n after e, f.statements = before ++ n :: after ∧ AreAccepted settings before ∧
      Refuses settings (exportNames settings before) n e ∧
      ((file settings f).run (.start session)).1 = .error e := by
  have hflat : AreFlat f.statements := fun n hn m hm => (hfits n hn).lacks_below hm
  obtain ⟨h, hok⟩ | ⟨before, n, after, e, hsplit, h, he, herror⟩ :=
    file_cases hresolver hsession hflat
  · exact .inl ⟨(compatible_iff hresolver hfits).mp h, hok⟩
  · rw [hsplit] at hfits
    have hbefore : ∀ m ∈ before, Fits .statement m :=
      fun m hm => hfits m (List.mem_append_left _ hm)
    have hn := hfits n (List.mem_append_right _ List.mem_cons_self)
    exact .inr ⟨before, n, after, e, hsplit, (compatible_iff hresolver hbefore).mp h,
      (offence_iff hresolver hn).mp he, herror⟩

/-- A statement that is refused behind others that are accepted decides the error of the file. -/
theorem file_of_refuses (hresolver : settings.resolver = Resolver.declared)
    {session : Resolver.Cache} (hsession : session.IsFaithful) {f : SourceFile}
    (hfits : ∀ n ∈ f.statements, Fits .statement n) {before after : List Node}
    (hsplit : f.statements = before ++ n :: after) (h : AreAccepted settings before)
    {e : CompileError} (he : Refuses settings (exportNames settings before) n e) :
    ((file settings f).run (.start session)).1 = .error e := by
  have hflat : AreFlat f.statements := fun m hm _ hbelow => (hfits m hm).lacks_below hbelow
  rw [hsplit] at hfits
  have hbefore := (compatible_iff hresolver fun m hm => hfits m (List.mem_append_left _ hm)).mpr h
  have hn := hfits n (List.mem_append_right _ List.mem_cons_self)
  exact file_of_refused hresolver hsession hflat hsplit hbefore ((offence_iff hresolver hn).mpr he)

/-- An unknown statement can be left out of a file. -/
theorem file_without_unknown (hresolver : settings.resolver = Resolver.declared)
    {session : Resolver.Cache} (hsession : session.IsFaithful) {f : SourceFile}
    (hfits : ∀ n ∈ f.statements, Fits .statement n) {before after : List Node} {form text : String}
    (hsplit : f.statements = before ++ .unknown form text :: after) :
    ((file settings { f with statements := before ++ after }).run (.start session)).1 =
      ((file settings f).run (.start session)).1 := by
  have hflat : AreFlat f.statements := fun m hm _ hbelow => (hfits m hm).lacks_below hbelow
  refine file_of_handled hresolver hsession hflat ?_
  rw [hsplit, List.filter_append, List.filter_append, List.filter_cons_of_neg Bool.false_ne_true]

end Compile

end TypeSuite
