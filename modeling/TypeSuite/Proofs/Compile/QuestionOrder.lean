import TypeSuite.Proofs.Compile.Questions
import TypeSuite.Proofs.Node.Places

/-!
# The order of questions

A compilation asks the resolver for the names that the evaluated nodes declare, in the order in
which it comes to these nodes, and for nothing else; when it fails, it stops asking. `Asks` says so
of any computation with a recording resolver, `node_asks_names` of a node, and `node_asks` adds where
in the tree the questions stand.
-/

namespace TypeSuite.Compile

open Step (run_bind_of_error run_bind_of_ok)

variable {σ α β : Type} {settings : CompileSettings σ}

/-- The nodes that the resolver is asked for in the compilation of a node, in order. -/
def questions (settings : CompileSettings σ) (n : Node) (p : Progress σ) : List Node :=
  ((node settings.recording n).run p.recording).2.session.2

/-! ## Questions of computations -/

/-- A computation with a recording resolver adds the first of some names to the record, and all of
them when it succeeds. -/
def Asks (x : Compile (σ × List Node) α) (names : List Node) : Prop :=
  ∀ p, ∃ asked, (x.run p).2.session.2 = p.session.2 ++ asked ∧ asked <+: names ∧
    ∀ a, (x.run p).1 = .ok a → asked = names

/-- A computation that leaves the memory of the resolver alone asks for nothing. -/
theorem asks_nothing {x : Compile (σ × List Node) α} (h : ∀ p, (x.run p).2.session = p.session) :
    Asks x [] :=
  fun p => ⟨[], by rw [h, List.append_nil], List.prefix_rfl, fun _ _ => rfl⟩

/-- A finished value asks for nothing. -/
theorem asks_pure (a : α) : Asks (pure a : Compile (σ × List Node) α) [] :=
  asks_nothing fun _ => rfl

/-- A failure asks for none of any names. -/
theorem asks_throw (e : CompileError) (names : List Node) :
    Asks (throw e : Compile (σ × List Node) α) names :=
  fun _ => ⟨[], (List.append_nil _).symm, List.nil_prefix, fun _ ha => nomatch ha⟩

/-- Computations one after the other ask in this order. -/
theorem asks_bind {x : Compile (σ × List Node) α} {f : α → Compile (σ × List Node) β}
    {first second : List Node} (hx : Asks x first) (hf : ∀ a, Asks (f a) second) :
    Asks (x >>= f) (first ++ second) := by
  intro p
  obtain ⟨asked, hrecord, hprefix, hall⟩ := hx p
  cases hrun : x.run p with
  | mk outcome q =>
      rw [hrun] at hrecord hall
      cases outcome with
      | error e =>
          rw [run_bind_of_error hrun]
          exact ⟨asked, hrecord, hprefix.trans (List.prefix_append _ _), fun _ ha => nomatch ha⟩
      | ok a =>
          obtain rfl := hall a rfl
          obtain ⟨more, hmore, hnext, hrest⟩ := hf a q
          rw [run_bind_of_ok hrun]
          refine ⟨asked ++ more, ?_, (List.prefix_append_right_inj asked).mpr hnext, fun b hb => ?_⟩
          · rw [hmore, hrecord, List.append_assoc]
          · rw [hrest b hb]

/-- A computation that asks for nothing adds nothing to the questions of the one before it. -/
theorem asks_before {x : Compile (σ × List Node) α} {f : α → Compile (σ × List Node) β}
    {names : List Node} (hx : Asks x names) (hf : ∀ a, Asks (f a) []) : Asks (x >>= f) names := by
  rw [← List.append_nil names]
  exact asks_bind hx hf

/-- What is made of a value asks for nothing more. -/
theorem asks_map {x : Compile (σ × List Node) α} {f : α → β} {names : List Node}
    (hx : Asks x names) : Asks (x >>= fun a => pure (f a)) names :=
  asks_before hx fun a => asks_pure (f a)

/-- Resolving a name asks for it before all that follows. -/
theorem asks_resolve_name {f : String → Compile (σ × List Node) β} {n : Node} {names : List Node}
    (hf : ∀ name, Asks (f name) names) :
    Asks (resolveName settings.recording n >>= f) (n :: names) := by
  have hname : Asks (resolveName settings.recording n) [n] := by
    intro p
    obtain ⟨events, hrun⟩ := run_resolve_name settings.recording n p
    rw [hrun]
    exact ⟨[n], rfl, List.prefix_rfl, fun _ _ => rfl⟩
  exact asks_bind hname hf

/-- Exporting a declaration asks for nothing. -/
theorem asks_add_export (d : Declaration) :
    Asks (addExport d : Compile (σ × List Node) Validator) [] := by
  refine asks_nothing fun p => ?_
  by_cases h : d.name ∈ p.exports.names
  · rw [run_add_export_taken h]
  · obtain ⟨exports, -, hrun⟩ := run_add_export_fresh h
    rw [hrun]

/-! ## Questions of nodes -/

/-- Nodes ask for the names in them from left to right. -/
theorem nodes_ask {ns : List Node}
    (h : ∀ n ∈ ns, Asks (node settings.recording n) (n.declaredNames settings.wrapper)) :
    Asks (nodes settings.recording ns) (ns.flatMap (Node.declaredNames settings.wrapper)) := by
  induction ns with
  | nil => exact asks_pure []
  | cons n rest ih =>
      have hrest := ih fun m hm => h m (List.mem_cons_of_mem _ hm)
      exact asks_bind (h n List.mem_cons_self) fun _ => asks_map hrest

/-- An annotation asks for the names in its node. -/
theorem annotated_asks {type : Option Node}
    (h : ∀ n ∈ type, Asks (node settings.recording n) (n.declaredNames settings.wrapper)) :
    Asks (annotated settings.recording type)
      (type.toList.flatMap (Node.declaredNames settings.wrapper)) := by
  cases type with
  | none => exact asks_pure Validator.any
  | some n =>
      rw [Option.toList_some, List.flatMap_singleton]
      exact h n rfl

/-- A result and parameters ask for the names in the result and then for those in the parameters. -/
theorem signature_asks {f : Validator → List Validator → β} {type : Option Node}
    {parameters : List Node}
    (htype : ∀ n ∈ type, Asks (node settings.recording n) (n.declaredNames settings.wrapper))
    (hparameters : ∀ n ∈ parameters,
      Asks (node settings.recording n) (n.declaredNames settings.wrapper)) :
    Asks (annotated settings.recording type >>= fun result =>
      nodes settings.recording parameters >>= fun params => pure (f result params))
      ((type.toList ++ parameters).flatMap (Node.declaredNames settings.wrapper)) := by
  rw [List.flatMap_append]
  exact asks_bind (annotated_asks htype) fun _ => asks_map (nodes_ask hparameters)

/-- Statements ask for the names in those that are not skipped. -/
theorem statement_list_asks (fileName : String) {ns : List Node}
    (h : ∀ n ∈ ns, Asks (node settings.recording n) (n.declaredNames settings.wrapper)) :
    Asks (statementList settings.recording fileName ns)
      ((ns.filter (·.kind.isHandled)).flatMap (Node.declaredNames settings.wrapper)) := by
  induction ns with
  | nil => exact asks_pure []
  | cons n rest ih =>
      have hrest := ih fun m hm => h m (List.mem_cons_of_mem _ hm)
      rw [statementList, List.filter_cons]
      split
      case isTrue =>
        exact asks_bind (h n List.mem_cons_self) fun _ => asks_map hrest
      case isFalse =>
        exact asks_bind (asks_nothing fun _ => rfl) fun _ => hrest

/-- A node asks for the names that the nodes evaluated with it declare, in the order of their
compilation. -/
theorem node_asks_names (settings : CompileSettings σ) (n : Node) :
    Asks (node settings.recording n) (n.declaredNames settings.wrapper) := by
  induction n using Node.children_induction with
  | h n ih =>
  rw [Node.declared_names_eq]
  cases n with
  | identifier | literal | keyword => exact asks_pure _
  | stringLiteral | numericLiteral | computedName | unknown => exact asks_throw _ _
  | parameter name type | property name type =>
      exact asks_resolve_name fun _ => asks_map (annotated_asks fun m hm =>
        ih m (by simp [Node.children, Option.mem_def.mp hm]))
  | method name parameters type =>
      exact asks_resolve_name fun _ => signature_asks
        (fun m hm => ih m (by simp [Node.children, Option.mem_def.mp hm]))
        fun m hm => ih m (by simp [Node.children, hm])
  | function parameters type =>
      exact signature_asks
        (fun m hm => ih m (by simp [Node.children, Option.mem_def.mp hm]))
        fun m hm => ih m (by simp [Node.children, hm])
  | reference name arguments text =>
      match arguments with
      | [] => exact asks_pure _
      | [argument] =>
          rw [node]
          split
          case isTrue hname =>
            have hwrapper : name.text = settings.wrapper := hname
            rw [Node.evaluatedFields, if_pos hwrapper, List.flatMap_singleton]
            exact ih argument (by simp [Node.children])
          case isFalse => exact asks_throw _ _
      | _ :: _ :: _ => exact asks_throw _ _
  | typeLiteral list | tuple list | union list => exact asks_map (nodes_ask ih)
  | array element =>
      rw [Node.evaluatedFields, List.flatMap_singleton]
      exact asks_map (ih element (by simp [Node.children]))
  | interface name bases members =>
      have hmembers : Asks (nodes settings.recording members) _ :=
        nodes_ask fun m hm => ih m (by simp [Node.children, hm])
      have hbases : Asks (nodes settings.recording bases) _ :=
        nodes_ask fun m hm => ih m (by simp [Node.children, hm])
      rw [Node.evaluatedFields, List.flatMap_append]
      show Asks _ (name :: (members.flatMap _ ++ bases.flatMap _))
      refine asks_resolve_name fun _ => ?_
      refine asks_bind hmembers fun _ => ?_
      exact asks_before hbases fun _ => asks_add_export _
  | «alias» name type =>
      rw [Node.evaluatedFields, List.flatMap_singleton]
      exact asks_resolve_name fun _ =>
        asks_before (ih type (by simp [Node.children])) fun _ => asks_add_export _
  | heritage expression =>
      rw [Node.evaluatedFields, List.flatMap_singleton]
      exact ih expression (by simp [Node.children])
  | parenthesized type =>
      rw [Node.evaluatedFields, List.flatMap_singleton]
      exact ih type (by simp [Node.children])
  | sourceFile fileName statements =>
      exact asks_before (statement_list_asks fileName ih) fun _ => asks_nothing fun _ => rfl

/-- In the compilation of a node the resolver is asked for the names that the nodes evaluated with
it declare, in the order of their compilation: for all of them when the compilation succeeds, and
for the first ones when it fails. Each question stands in a place of its own, the name field of a
node that is evaluated. On the way there lie no name of a reference and no argument of a base type,
and the expression of a base type is no question. -/
theorem node_asks (settings : CompileSettings σ) (n : Node) (p : Progress σ) :
    (∀ v, ((node settings n).run p).1 = .ok v →
      questions settings n p = (n.evaluated settings.wrapper).filterMap Node.nameField?) ∧
    (∀ e, ((node settings n).run p).1 = .error e →
      questions settings n p <+: (n.evaluated settings.wrapper).filterMap Node.nameField?) ∧
    ∃ places : List Node.Place, places.Nodup ∧
      places.map n.at? = (questions settings n p).map some ∧
      ∀ place ∈ places,
        (∃ above, place = above ++ [0] ∧ ∃ parent ∈ n.evaluated settings.wrapper,
          n.at? above = some parent ∧ parent.nameField? = n.at? place) ∧
        ∀ above m i inner, place = above ++ i :: inner → n.at? above = some m →
          (m.kind = .reference → i ≠ 0) ∧ (m.kind = .heritage → i = 0 ∧ inner ≠ []) := by
  obtain ⟨asked, hrecord, hprefix, hall⟩ := node_asks_names settings n p.recording
  have hasked : questions settings n p = asked := hrecord
  obtain ⟨hsame, -⟩ := recorded_node settings n p
  obtain ⟨places, hplaces, hways⟩ := Node.evaluated_placed settings.wrapper n
  have hnames := hplaces.names.of_prefix hprefix
  rw [hasked]
  refine ⟨fun v hv => hall v (hsame.trans hv), fun _ _ => hprefix, _, hnames.distinct,
    hnames.stand, fun place hplace => ?_⟩
  obtain ⟨outer, houter, rfl, parent, hparent, hat, hdeclares, hfield⟩ :=
    hplaces.exists_parent (List.mem_of_mem_take hplace)
  exact ⟨⟨outer, rfl, parent, hparent, hat, hfield⟩, fun above m i inner hway hm =>
    (hways outer houter).avoids hat hdeclares hway hm⟩

/-- Statements of which the first is skipped and the second has names in a base type, in a parameter
and under the wrapper. -/
def skippedAndAsked : List Node := [
  .unknown "import_statement" "import B",
  .interface (.identifier "A")
    [.heritage (.identifier "B")
      [.typeLiteral [.property (.identifier "unasked") none false "unasked"] "{ unasked }"]
      "B<{ unasked }>"]
    [.method (.identifier "m")
      [.parameter (.identifier "x") (some (.reference (.identifier "C") [] "C")) false "x: C"]
      (some (.reference (.identifier "Promise")
        [.typeLiteral [.property (.numericLiteral "1") none true "1?"] "{ 1? }"]
        "Promise<{ 1? }>"))
      "m(x: C): Promise<{ 1? }>"]
    "interface A extends B<{ unasked }> { m(x: C): Promise<{ 1? }> }"]

/-- Statements of which the first is refused for its name once its type is compiled. -/
def refusedAndUnasked : List Node := [
  .alias (.identifier "A") (.typeLiteral [.property (.identifier "y") none false "y"] "{ y }")
    "type A = { y }",
  .alias (.identifier "D") (.keyword .string "string") "type D = string"]

/-- A file that compiles asks for the names in a result before those of the parameters, and for none
in arguments of base types. A file that is refused for a repeated name asks in the same order. -/
theorem node_asks_refused :
    (∃ v, ((node ⟨Resolver.declared, "unknown", "Promise"⟩
      (.sourceFile "a.ts" skippedAndAsked "")).run (.start [])).1 = .ok v) ∧
    questions ⟨Resolver.declared, "unknown", "Promise"⟩ (.sourceFile "a.ts" skippedAndAsked "")
      (.start []) =
      [.identifier "A", .identifier "m", .numericLiteral "1", .identifier "x"] ∧
    ((node ⟨Resolver.declared, "unknown", "Promise"⟩
      (.sourceFile "a.ts" (skippedAndAsked ++ refusedAndUnasked) "")).run (.start [])).1 =
        .error (.duplicateExport "A") ∧
    questions ⟨Resolver.declared, "unknown", "Promise"⟩
      (.sourceFile "a.ts" (skippedAndAsked ++ refusedAndUnasked) "") (.start []) <+:
      [.identifier "A", .identifier "m", .numericLiteral "1", .identifier "x", .identifier "A",
        .identifier "y", .identifier "D"] := by
  obtain ⟨hok, -, -⟩ := node_asks ⟨Resolver.declared, "unknown", "Promise"⟩
    (.sourceFile "a.ts" skippedAndAsked "") (.start [])
  obtain ⟨-, herror, -⟩ := node_asks ⟨Resolver.declared, "unknown", "Promise"⟩
    (.sourceFile "a.ts" (skippedAndAsked ++ refusedAndUnasked) "") (.start [])
  have hnames : ((Node.sourceFile "a.ts" (skippedAndAsked ++ refusedAndUnasked) "").evaluated
      "Promise").filterMap Node.nameField? = [.identifier "A", .identifier "m",
        .numericLiteral "1", .identifier "x", .identifier "A", .identifier "y",
        .identifier "D"] := by cbv
  exact ⟨⟨_, rfl⟩, (hok _ rfl).trans (by cbv), rfl, hnames ▸ herror (.duplicateExport "A") rfl⟩

end TypeSuite.Compile
