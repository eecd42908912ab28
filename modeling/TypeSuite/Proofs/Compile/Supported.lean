import TypeSuite.Proofs.Compile.Run
import TypeSuite.Proofs.Node.Evaluated
import TypeSuite.Proofs.Node.Role

/-!
# The supported language

The compiler takes the trees whose evaluated nodes are all supported, and it blames the first one
that is not. `compiles_supported` says so for all trees without declarations and source files.
`Ends` says how a computation ends wherever it runs, and `node_ends` how a node does.
-/

namespace TypeSuite

namespace Node

/-- Whether a node can be compiled as far as it alone is concerned: there is a rule for its kind,
and a reference with type arguments is the wrapper with a single one. -/
def isSupported (wrapper : String) : Node → Bool
  | .reference name arguments _ =>
    arguments.isEmpty || (arguments.length == 1 && name.text == wrapper)
  | n => n.kind.isHandled

/-- The error that blames a node. -/
def blame : Node → CompileError
  | .reference _ _ text => .unsupportedGenerics text
  | n => .unsupportedNode n.kindName n.text

/-- The error that blames the first node which is not supported among those that are evaluated with
some nodes, in the order of their compilation. -/
def firstBlame (wrapper : String) (ns : List Node) : Option CompileError :=
  ((ns.flatMap (evaluated wrapper)).find? fun n => !n.isSupported wrapper).map blame

/-- The nodes in front are blamed first. -/
theorem first_blame_append (wrapper : String) (ns ms : List Node) :
    firstBlame wrapper (ns ++ ms) = (firstBlame wrapper ns).or (firstBlame wrapper ms) := by
  rw [firstBlame, List.flatMap_append, List.find?_append, Option.map_or]
  rfl

/-- In front of a supported node stands none that is blamed, so those below it decide. -/
theorem first_blame_of_supported {wrapper : String} {n : Node}
    (h : n.isSupported wrapper = true) :
    firstBlame wrapper [n] = firstBlame wrapper (n.evaluatedFields wrapper) := by
  rw [firstBlame, List.flatMap_singleton, evaluated_eq, List.find?_cons_of_neg (by simp [h])]
  rfl

/-- A node that is not supported is blamed before those below it. -/
theorem first_blame_of_not_supported {wrapper : String} {n : Node}
    (h : n.isSupported wrapper = false) : firstBlame wrapper [n] = some n.blame := by
  rw [firstBlame, List.flatMap_singleton, evaluated_eq, List.find?_cons_of_pos (by simp [h])]
  rfl

/-- Of some nodes none is blamed if and only if all nodes that are evaluated with them are
supported. -/
theorem first_blame_none_iff {wrapper : String} {ns : List Node} :
    firstBlame wrapper ns = none ↔
      ∀ m ∈ ns.flatMap (evaluated wrapper), m.isSupported wrapper = true := by
  rw [firstBlame, Option.map_eq_none_iff, List.find?_eq_none]
  simp only [Bool.not_eq_true', Bool.not_eq_false]

/-- Of some nodes the one is blamed that is the first evaluated one which is not supported. -/
theorem first_blame_some_iff {wrapper : String} {ns : List Node} {e : CompileError} :
    firstBlame wrapper ns = some e ↔
      ∃ before m after, ns.flatMap (evaluated wrapper) = before ++ m :: after ∧
        (∀ x ∈ before, x.isSupported wrapper = true) ∧ m.isSupported wrapper = false ∧
        e = m.blame := by
  simp only [firstBlame, Option.map_eq_some_iff, List.find?_eq_some_iff_append,
    Bool.not_eq_eq_eq_not, Bool.not_true, Bool.not_not]
  constructor
  · rintro ⟨m, ⟨hm, before, after, hsplit, hbefore⟩, rfl⟩
    exact ⟨before, m, after, hsplit, hbefore, hm, rfl⟩
  · rintro ⟨before, m, after, hsplit, hbefore, hm, rfl⟩
    exact ⟨m, ⟨hm, before, after, hsplit, hbefore⟩, rfl⟩

/-- No node is blamed if and only if all evaluated nodes are supported. -/
theorem first_blame_eq_none_iff {wrapper : String} {n : Node} :
    firstBlame wrapper [n] = none ↔ ∀ m ∈ n.evaluated wrapper, m.isSupported wrapper = true := by
  rw [first_blame_none_iff, List.flatMap_singleton]

/-- A node is blamed if and only if it is the first evaluated one that is not supported. -/
theorem first_blame_eq_some_iff {wrapper : String} {n : Node} {e : CompileError} :
    firstBlame wrapper [n] = some e ↔
      ∃ before m after, n.evaluated wrapper = before ++ m :: after ∧
        (∀ x ∈ before, x.isSupported wrapper = true) ∧ m.isSupported wrapper = false ∧
        e = m.blame := by
  rw [first_blame_some_iff, List.flatMap_singleton]

end Node

namespace Compile

open Step (run_bind_of_error run_bind_of_ok)

variable {σ α β : Type} {settings : CompileSettings σ}

/-! ## Ends of computations -/

/-- The error of an outcome, if it is one. -/
def failure? : Except CompileError α → Option CompileError
  | .ok _ => none
  | .error e => some e

/-- A computation ends in the same way wherever it runs: with an error, or else with some value. -/
def Ends (x : Compile σ α) (error : Option CompileError) : Prop :=
  ∀ p, failure? (x.run p).1 = error

/-- A finished value is no error. -/
theorem ends_pure (a : α) : Ends (pure a : Compile σ α) none :=
  fun _ => rfl

/-- A failure ends with its error. -/
theorem ends_throw (e : CompileError) : Ends (throw e : Compile σ α) (some e) :=
  fun _ => rfl

/-- Of two computations one after the other, the first error counts. -/
theorem ends_bind {x : Compile σ α} {f : α → Compile σ β} {first second : Option CompileError}
    (hx : Ends x first) (hf : ∀ a, Ends (f a) second) : Ends (x >>= f) (first.or second) := by
  intro p
  have hfirst := hx p
  cases hrun : x.run p with
  | mk outcome q =>
      rw [hrun] at hfirst
      subst hfirst
      cases outcome with
      | error e =>
          rw [run_bind_of_error hrun]
          rfl
      | ok a =>
          rw [run_bind_of_ok hrun]
          exact hf a q

/-- What is made of a value adds no error. -/
theorem ends_map {x : Compile σ α} {f : α → β} {error : Option CompileError} (hx : Ends x error) :
    Ends (x >>= fun a => pure (f a)) error := by
  rw [← @Option.or_none _ error]
  exact ends_bind hx fun a => ends_pure (f a)

/-- Resolving a name adds no error. -/
theorem ends_resolve_name {f : String → Compile σ β} {error : Option CompileError} {n : Node}
    (hf : ∀ name, Ends (f name) error) : Ends (resolveName settings n >>= f) error := by
  have hname : Ends (resolveName settings n) none := by
    intro p
    obtain ⟨events, hrun⟩ := run_resolve_name settings n p
    rw [hrun]
    rfl
  exact ends_bind hname hf

/-! ## Ends of nodes -/

/-- Nodes end as the first of them that fails. -/
theorem nodes_end {ns : List Node}
    (h : ∀ n ∈ ns, Ends (node settings n) (Node.firstBlame settings.wrapper [n])) :
    Ends (nodes settings ns) (Node.firstBlame settings.wrapper ns) := by
  induction ns with
  | nil => exact ends_pure []
  | cons n rest ih =>
      have hrest := ih fun m hm => h m (List.mem_cons_of_mem _ hm)
      rw [← List.singleton_append, Node.first_blame_append]
      exact ends_bind (h n List.mem_cons_self) fun _ => ends_map hrest

/-- An annotation ends as its node. -/
theorem annotated_ends {type : Option Node}
    (h : ∀ n ∈ type, Ends (node settings n) (Node.firstBlame settings.wrapper [n])) :
    Ends (annotated settings type) (Node.firstBlame settings.wrapper type.toList) := by
  cases type with
  | none => exact ends_pure Validator.any
  | some n => exact h n rfl

/-- A result and parameters end as the result, or else as the first parameter that fails. -/
theorem signature_ends {f : Validator → List Validator → β} {type : Option Node}
    {parameters : List Node}
    (htype : ∀ n ∈ type, Ends (node settings n) (Node.firstBlame settings.wrapper [n]))
    (hparameters : ∀ n ∈ parameters,
      Ends (node settings n) (Node.firstBlame settings.wrapper [n])) :
    Ends (annotated settings type >>= fun result => nodes settings parameters >>= fun params =>
      pure (f result params))
      (Node.firstBlame settings.wrapper (type.toList ++ parameters)) := by
  rw [Node.first_blame_append]
  exact ends_bind (annotated_ends htype) fun _ => ends_map (nodes_end hparameters)

/-- A node without declarations and source files ends as the first node blames that is evaluated
with it and not supported, or with a value when there is none. -/
theorem node_ends {n : Node} (h : Node.Lacks Node.isTopLevel n) :
    Ends (node settings n) (Node.firstBlame settings.wrapper [n]) := by
  induction n using Node.children_induction with
  | h n ih =>
  have hchild : ∀ c ∈ n.children,
      Ends (node settings c) (Node.firstBlame settings.wrapper [c]) :=
    fun c hc => ih c hc fun m hm => h m (.inside hc hm)
  cases n with
  | identifier | literal | keyword =>
      rw [Node.first_blame_of_supported rfl]
      exact ends_pure _
  | stringLiteral | numericLiteral | computedName | unknown =>
      rw [Node.first_blame_of_not_supported rfl]
      exact ends_throw _
  | parameter name type | property name type =>
      rw [Node.first_blame_of_supported rfl]
      exact ends_resolve_name fun _ => ends_map (annotated_ends fun m hm =>
        hchild m (by simp [Node.children, Option.mem_def.mp hm]))
  | method name parameters type =>
      rw [Node.first_blame_of_supported rfl]
      exact ends_resolve_name fun _ => signature_ends
        (fun m hm => hchild m (by simp [Node.children, Option.mem_def.mp hm]))
        fun m hm => hchild m (by simp [Node.children, hm])
  | function parameters type =>
      rw [Node.first_blame_of_supported rfl]
      exact signature_ends
        (fun m hm => hchild m (by simp [Node.children, Option.mem_def.mp hm]))
        fun m hm => hchild m (by simp [Node.children, hm])
  | reference name arguments text =>
      match arguments with
      | [] =>
          rw [Node.first_blame_of_supported rfl]
          exact ends_pure _
      | [argument] =>
          rw [node]
          split
          case isTrue hname =>
            rw [Node.first_blame_of_supported (by simp [Node.isSupported, hname]),
              Node.evaluatedFields, if_pos hname]
            exact hchild argument (by simp [Node.children])
          case isFalse hname =>
            rw [Node.first_blame_of_not_supported (by simp [Node.isSupported, hname])]
            exact ends_throw _
      | _ :: _ :: _ =>
          rw [Node.first_blame_of_not_supported (by simp [Node.isSupported])]
          exact ends_throw _
  | typeLiteral list | tuple list | union list =>
      rw [Node.first_blame_of_supported rfl]
      exact ends_map (nodes_end hchild)
  | array element =>
      rw [Node.first_blame_of_supported rfl]
      exact ends_map (hchild element (by simp [Node.children]))
  | heritage expression =>
      rw [Node.first_blame_of_supported rfl]
      exact hchild expression (by simp [Node.children])
  | parenthesized type =>
      rw [Node.first_blame_of_supported rfl]
      exact hchild type (by simp [Node.children])
  | interface | «alias» | sourceFile => cases h _ .here

/-- A tree without declarations and source files compiles if and only if all nodes that are
evaluated with it are supported. Otherwise the error blames the first one that is not, in the order
of compilation. -/
theorem compiles_supported (settings : CompileSettings σ) (n : Node)
    (h : Node.Lacks Node.isTopLevel n) (p : Progress σ) :
    ((∃ v, ((node settings n).run p).1 = .ok v) ↔
      ∀ m ∈ n.evaluated settings.wrapper, m.isSupported settings.wrapper = true) ∧
    ∀ e, ((node settings n).run p).1 = .error e ↔
      ∃ before m after, n.evaluated settings.wrapper = before ++ m :: after ∧
        (∀ x ∈ before, x.isSupported settings.wrapper = true) ∧
        m.isSupported settings.wrapper = false ∧ e = m.blame := by
  rw [← Node.first_blame_eq_none_iff]
  simp only [← Node.first_blame_eq_some_iff, ← node_ends h p]
  cases ((node settings n).run p).1 <;> simp [failure?]

/-- A parameter of an unsupported generic type. -/
def refusedParameter : Node :=
  .parameter (.identifier "a") (some (.reference (.identifier "Set") [.keyword .string "string"]
    "Set<string>")) false "a: Set<string>"

/-- An unsupported type in brackets. -/
def refusedResult : Node :=
  .parenthesized (.unknown "intersection_type" "A & B") "(A & B)"

/-- A method with a computed name, an unsupported parameter and an unsupported result under the
wrapper. -/
def refusedMethod : Node :=
  .method (.computedName "[k]") [refusedParameter]
    (some (.reference (.identifier "Promise") [refusedResult] "Promise<(A & B)>"))
    "[k](a: Set<string>): Promise<(A & B)>"

/-- The method is refused for its result, which is compiled before its parameter. -/
theorem compiles_supported_refused :
    Node.Lacks Node.isTopLevel refusedMethod ∧
      ((node ⟨Resolver.declared, "unknown", "Promise"⟩ refusedMethod).run (.start [])).1 =
        .error (.unsupportedNode "intersection_type" "A & B") ∧
      ¬ ∃ v, ((node ⟨Resolver.declared, "unknown", "Promise"⟩ refusedMethod).run (.start [])).1 =
        .ok v := by
  have hparameter : Node.Fits .parameter refusedParameter :=
    .parameter _ _ (.identifier _) (by simpa using .reference _ _ (by simpa using .keyword _ _))
  have hresult : Node.Fits .type refusedResult := .parenthesized _ (.unknown _ _ _)
  have hfits : Node.Fits .member refusedMethod :=
    .method _ (.computedName _) (by simpa using hparameter)
      (by simpa using .reference _ _ (by simpa using hresult))
  have hlacks := hfits.lacks (by decide)
  obtain ⟨hok, herror⟩ := compiles_supported ⟨Resolver.declared, "unknown", "Promise"⟩
    refusedMethod hlacks (.start [])
  -- What is evaluated up to the blamed node, that node, and what would be evaluated behind it.
  have hevaluated : refusedMethod.evaluated "Promise" =
      [refusedMethod, .reference (.identifier "Promise") [refusedResult] "Promise<(A & B)>",
        refusedResult] ++ .unknown "intersection_type" "A & B" ::
      [refusedParameter, .reference (.identifier "Set") [.keyword .string "string"]
        "Set<string>"] := by
    simp [refusedMethod, refusedResult, refusedParameter, Node.evaluated_eq, Node.evaluatedFields,
      Node.text]
  have hbefore : ∀ x ∈ [refusedMethod,
      .reference (.identifier "Promise") [refusedResult] "Promise<(A & B)>", refusedResult],
      x.isSupported "Promise" = true := by decide
  refine ⟨hlacks, (herror _).mpr ⟨_, _, _, hevaluated, hbefore, rfl, rfl⟩, ?_⟩
  rw [hok, hevaluated]
  exact fun hall => absurd (hall (.unknown "intersection_type" "A & B") (by simp)) (by decide)

end Compile

end TypeSuite
