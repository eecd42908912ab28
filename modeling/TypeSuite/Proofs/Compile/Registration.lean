import TypeSuite.Proofs.Compile.Growth
import TypeSuite.Proofs.Node.Role

/-!
# Registration of declarations

What a compilation exports is registered at once and stays registered. `node_registers` says what
the compilation of one node does to the exports, whether it succeeds or fails: a declaration without
further ones below it is all or nothing, since it is exported last.
-/

namespace TypeSuite.Compile

open Step (run_bind_of_error run_bind_of_ok run_bind_ok)

variable {σ : Type} {settings : CompileSettings σ}

/-- The node that names a declaration. -/
def namingNode? : Node → Option Node
  | .interface name _ _ _ => some name
  | .alias name _ _ => some name
  | _ => none

/-- What a naming node is resolved to: the answer of the resolver, or else the fallback. -/
def resolvedName (settings : CompileSettings σ) (name : Node) (p : Progress σ) : String :=
  ((settings.resolver name).run p.session).1.getD settings.fallback

/-- Exactly the declarations have a node that names them. -/
theorem is_some_naming_node (n : Node) : (namingNode? n).isSome = Node.isDeclaration n.kind := by
  cases n <;> rfl

/-- A declaration is named by the resolver before anything below it is compiled. -/
theorem unexported_resolved {n name : Node} (hname : namingNode? n = some name)
    {x : Compile σ Declaration} (h : unexported? settings n = some x) {p q : Progress σ}
    {d : Declaration} (hrun : x.run p = (.ok d, q)) : d.name = resolvedName settings name p := by
  obtain ⟨events, hresolve⟩ := run_resolve_name settings name p
  unfold unexported? at h
  split at h
  case h_1 =>
    obtain rfl := Option.some.inj hname
    obtain rfl := Option.some.inj h
    rw [run_bind_of_ok hresolve] at hrun
    obtain ⟨members, _, -, hrun⟩ := run_bind_ok hrun
    obtain ⟨bases, _, -, hrun⟩ := run_bind_ok hrun
    cases hrun
    rfl
  case h_2 =>
    obtain rfl := Option.some.inj hname
    obtain rfl := Option.some.inj h
    rw [run_bind_of_ok hresolve] at hrun
    obtain ⟨value, _, -, hrun⟩ := run_bind_ok hrun
    cases hrun
    rfl
  case h_3 => cases h

/-- A run gives a declaration of a name and has added it behind the exports, or it fails and leaves
the exports as they are. -/
inductive Registers (p : Progress σ) (name : String) :
    Except CompileError Validator × Progress σ → Prop where
  | added (d : Declaration) (q : Progress σ) : d.name = name →
      q.exports.entries = p.exports.entries ++ [d] →
      (∀ other, other ∈ q.exports.seen ↔ other = name ∨ other ∈ p.exports.seen) →
      Registers p name (.ok d.toValidator, q)
  | refused (e : CompileError) (q : Progress σ) : q.exports = p.exports →
      Registers p name (.error e, q)

/-- What is registered has its name behind those before it. -/
theorem Registers.names_of_ok {p : Progress σ} {name : String}
    {r : Except CompileError Validator × Progress σ} (h : Registers p name r)
    (hr : r.1.isOk = true) : r.2.exports.names = p.exports.names ++ [name] := by
  cases h with
  | added d q hd hentries =>
      rw [Exports.names, hentries, List.map_append, List.map_singleton, hd, Exports.names]
  | refused e q => cases hr

/-- What is refused leaves the exports as they are. -/
theorem Registers.exports_of_error {p : Progress σ} {name : String}
    {r : Except CompileError Validator × Progress σ} (h : Registers p name r)
    (hr : r.1.isOk = false) : r.2.exports = p.exports := by
  cases h with
  | added d q => cases hr
  | refused e q hsame => exact hsame

/-- A name is seen behind a declaration if it was seen before or is that of the declaration. -/
theorem mem_seen_of_entries {before after : Exports} {d : Declaration}
    (h : after.entries = before.entries ++ [d]) (other : String) :
    other ∈ after.seen ↔ other = d.name ∨ other ∈ before.seen := by
  rw [after.covered, before.covered, h, List.map_append, List.mem_append, List.map_singleton,
    List.mem_singleton]
  exact Or.comm

/-- Adding a declaration registers it, or the exports are left as they are. -/
theorem add_export_registers (d : Declaration) (p : Progress σ) :
    Registers p d.name ((addExport d).run p) := by
  by_cases htaken : d.name ∈ p.exports.names
  · rw [run_add_export_taken htaken]
    exact .refused _ p rfl
  · obtain ⟨exports, hentries, hrun⟩ := run_add_export_fresh htaken
    rw [hrun]
    exact .added d _ rfl hentries (mem_seen_of_entries hentries)

/-- A declaration without declarations below it is registered under its resolved name, or the
exports are left as they are. -/
theorem declaration_registers {n name : Node} (hname : namingNode? n = some name)
    (hbelow : ∀ m, Node.OccursBelow m n → Node.isDeclaration m.kind = false) (p : Progress σ) :
    Registers p (resolvedName settings name p) ((node settings n).run p) := by
  have hdeclaration : (unexported? settings n).isSome = true := by
    rw [is_some_unexported, ← is_some_naming_node, hname]
    rfl
  obtain ⟨x, hx⟩ := Option.isSome_iff_exists.mp hdeclaration
  have hperforms : Performs settings (· = .read) x :=
    unexported_performs hx fun c hc => permits_read fun m hm => hbelow m ⟨c, hc, hm⟩
  have hkept := hperforms.keeps (by decide) p
  rw [node_of_unexported hx]
  cases hrun : x.run p with
  | mk outcome q =>
      rw [hrun] at hkept
      cases outcome with
      | error e =>
          rw [run_bind_of_error hrun]
          exact .refused e q hkept
      | ok d =>
          have hregisters := add_export_registers d q
          rw [run_bind_of_ok hrun, ← unexported_resolved hname hx hrun]
          -- The exports are those of the start until the declaration is added.
          generalize (addExport d).run q = last at hregisters
          cases hregisters with
          | added d' r hd hentries hseen => exact .added d' r hd (hkept ▸ hentries) (hkept ▸ hseen)
          | refused e r hsame => exact .refused e r (hsame.trans hkept)

/-- Compiling a node keeps the exports before it in front of those behind it, also when it fails. A
node without declarations leaves the exports as they are. A declaration without further ones below
it is exported behind the others as it is given back, under the name that the resolver gives it or
the fallback, and nothing else is; when it fails, the exports and the names that are seen are those
of the start. -/
theorem node_registers (settings : CompileSettings σ) (n : Node) (p : Progress σ) :
    p.exports.entries <+: ((node settings n).run p).2.exports.entries ∧
    (Node.Lacks Node.isDeclaration n → ((node settings n).run p).2.exports = p.exports) ∧
    ∀ name, namingNode? n = some name →
      (∀ m, Node.OccursBelow m n → Node.isDeclaration m.kind = false) →
      Registers p (resolvedName settings name p) ((node settings n).run p) := by
  have hall : Performs settings (fun _ => True) (node settings n) := node_performs (permits_all n)
  refine ⟨hall.grows p, fun hlacks => ?_, fun name hname hbelow =>
    declaration_registers hname hbelow p⟩
  have hreads : Performs settings (· = .read) (node settings n) :=
    node_performs (permits_read hlacks)
  exact hreads.keeps (by decide) p

/-- An interface with a method, whose parameter has the given type. -/
def methodInterface (type : Node) : Node :=
  .interface (.identifier "A") []
    [.method (.stringLiteral "'m'") [.parameter (.computedName "[x]") (some type) true "[x]?: T"]
      none "'m'([x]?: T)"] "interface A"

/-- No declaration occurs below an interface with such a method. -/
theorem method_interface_flat {type : Node} (htype : Node.Fits .type type) :
    ∀ m, Node.OccursBelow m (methodInterface type) → Node.isDeclaration m.kind = false := by
  have hparameter : Node.Fits .parameter
      (.parameter (.computedName "[x]") (some type) true "[x]?: T") :=
    .parameter _ _ (.computedName _) (by simpa using htype)
  have hmethod : Node.Fits .member (.method (.stringLiteral "'m'")
      [.parameter (.computedName "[x]") (some type) true "[x]?: T"] none "'m'([x]?: T)") :=
    .method _ (.stringLiteral _) (by simpa using hparameter) (by simp)
  have hfits : Node.Fits .statement (methodInterface type) :=
    .interface _ (.identifier _) (by simp) (by simpa using hmethod)
  exact fun m hm => (Node.is_top_level_eq_false_iff.mp (hfits.lacks_below hm)).1

/-- An interface is registered when it compiles and leaves the exports as they are when it is
compiled once more or a type below it has no rule, as its type does by itself. -/
theorem node_registers_interface :
    let settings : CompileSettings Resolver.Cache := ⟨Resolver.declared, "unknown", "Promise"⟩
    let type : Node := .keyword .string "string"
    let first := (node settings (methodInterface type)).run (.start [])
    let second := (node settings (methodInterface type)).run first.2
    let broken := (node settings (methodInterface (.unknown "infer_type" "infer T"))).run first.2
    first.1.isOk = true ∧ first.2.exports.names = ["A"] ∧
      second.1.isOk = false ∧ second.2.exports = first.2.exports ∧
      broken.1.isOk = false ∧ broken.2.exports = first.2.exports ∧
      ((node settings type).run first.2).2.exports = first.2.exports := by
  intro settings type first second broken
  have htype : Node.Fits .type type := .keyword _ _
  have hgood := method_interface_flat htype
  have hbad := method_interface_flat (.unknown .type "infer_type" "infer T")
  have hadded := (node_registers settings _ (.start [])).2.2 _ rfl hgood
  have hagain := (node_registers settings _ first.2).2.2 _ rfl hgood
  have hnothing := (node_registers settings _ first.2).2.2 _ rfl hbad
  have hlacks : Node.Lacks Node.isDeclaration type := fun m hm =>
    (Node.is_top_level_eq_false_iff.mp (htype.lacks (by decide) m hm)).1
  exact ⟨rfl, hadded.names_of_ok rfl, rfl, hagain.exports_of_error rfl, rfl,
    hnothing.exports_of_error rfl, (node_registers settings type first.2).2.1 hlacks⟩

end TypeSuite.Compile
