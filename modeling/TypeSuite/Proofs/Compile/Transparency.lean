import TypeSuite.Proofs.Compile.Questions
import TypeSuite.Proofs.Node.Role

/-!
# Transparent syntax

Brackets, deferred wrappers and the type arguments of base types leave no trace in what is compiled.
`Node.bare` takes them out of a node, and `file_bare` says that a file is compiled in the same way
without them: with the same outcome, the same questions to the resolver and the same reports.
-/

namespace TypeSuite

namespace Node

mutual
/-- A node in which brackets and wrappers around single arguments are replaced by what is inside
them, and base types have no arguments. Names are left as they are. -/
def bare (wrapper : String) : Node → Node
  | .identifier text => .identifier text
  | .stringLiteral text => .stringLiteral text
  | .numericLiteral text => .numericLiteral text
  | .computedName text => .computedName text
  | .parameter name type optional text => .parameter name (bareOption wrapper type) optional text
  | .property name type optional text => .property name (bareOption wrapper type) optional text
  | .method name parameters type text =>
    .method name (bareAll wrapper parameters) (bareOption wrapper type) text
  | .reference name [argument] text =>
    if name.text = wrapper then bare wrapper argument
    else .reference name [bare wrapper argument] text
  | .reference name arguments text => .reference name (bareAll wrapper arguments) text
  | .function parameters type text =>
    .function (bareAll wrapper parameters) (bareOption wrapper type) text
  | .typeLiteral members text => .typeLiteral (bareAll wrapper members) text
  | .array element text => .array (bare wrapper element) text
  | .tuple elements text => .tuple (bareAll wrapper elements) text
  | .union types text => .union (bareAll wrapper types) text
  | .literal text => .literal text
  | .interface name bases members text =>
    .interface name (bareAll wrapper bases) (bareAll wrapper members) text
  | .alias name type text => .alias name (bare wrapper type) text
  | .heritage expression _ text => .heritage (bare wrapper expression) [] text
  | .parenthesized type _ => bare wrapper type
  | .keyword k text => .keyword k text
  | .sourceFile fileName statements text => .sourceFile fileName (bareAll wrapper statements) text
  | .unknown form text => .unknown form text

/-- Nodes without brackets, wrappers and arguments of base types. -/
def bareAll (wrapper : String) : List Node → List Node
  | [] => []
  | n :: rest => bare wrapper n :: bareAll wrapper rest

/-- An optional node without brackets, wrappers and arguments of base types. -/
def bareOption (wrapper : String) : Option Node → Option Node
  | none => none
  | some n => some (bare wrapper n)
end

end Node

/-- No source file occurs in a node with a role. -/
theorem Node.Fits.lacks_source_file {role : Role} {n : Node} (h : Fits role n) :
    n.Lacks (· == .sourceFile) := by
  apply lacks_of_below
  · simpa using h.kind_ne_source_file
  · intro m hm
    simpa using (is_top_level_eq_false_iff.mp (h.lacks_below hm)).2

/-- A file whose statements have no brackets, wrappers and arguments of base types in them. -/
def SourceFile.bare (wrapper : String) (f : SourceFile) : SourceFile :=
  ⟨f.fileName, Node.bareAll wrapper f.statements, f.text⟩

namespace Compile

variable {σ : Type} {settings : CompileSettings σ}

/-- Nodes are compiled as their bare forms when each of them is. -/
theorem nodes_bare {ns : List Node}
    (h : ∀ n ∈ ns, node settings (n.bare settings.wrapper) = node settings n) :
    nodes settings (Node.bareAll settings.wrapper ns) = nodes settings ns := by
  induction ns with
  | nil => rfl
  | cons n rest ih =>
      have hrest := ih fun m hm => h m (List.mem_cons_of_mem _ hm)
      rw [Node.bareAll, nodes, nodes, h n List.mem_cons_self, hrest]

/-- An annotation is compiled as its bare form when its node is. -/
theorem annotated_bare {type : Option Node}
    (h : ∀ n ∈ type, node settings (n.bare settings.wrapper) = node settings n) :
    annotated settings (Node.bareOption settings.wrapper type) = annotated settings type := by
  cases type with
  | none => rfl
  | some n => exact h n rfl

/-- A node without source files is compiled as its bare form. -/
theorem node_bare {n : Node} (h : n.Lacks (· == .sourceFile)) :
    node settings (n.bare settings.wrapper) = node settings n := by
  induction n using Node.children_induction with
  | h n ih =>
  have hchild : ∀ c ∈ n.children, node settings (c.bare settings.wrapper) = node settings c :=
    fun c hc => ih c hc fun m hm => h m (.inside hc hm)
  cases n with
  | identifier | stringLiteral | numericLiteral | computedName | literal | keyword | unknown => rfl
  | parameter name type | property name type =>
      have htype : ∀ m ∈ type, node settings (m.bare settings.wrapper) = node settings m :=
        fun m hm => hchild m (by simp [Node.children, Option.mem_def.mp hm])
      rw [Node.bare, node, node, annotated_bare htype]
  | method name parameters type =>
      have htype : ∀ m ∈ type, node settings (m.bare settings.wrapper) = node settings m :=
        fun m hm => hchild m (by simp [Node.children, Option.mem_def.mp hm])
      have hparameters : ∀ m ∈ parameters,
          node settings (m.bare settings.wrapper) = node settings m :=
        fun m hm => hchild m (by simp [Node.children, hm])
      rw [Node.bare, node, node, annotated_bare htype, nodes_bare hparameters]
  | reference name arguments text =>
      match arguments with
      | [] => rfl
      | [argument] =>
          have hargument := hchild argument (by simp [Node.children])
          by_cases hname : name.text = settings.wrapper
          -- The wrapper stands for its argument on both sides, and it is gone on one of them.
          · rw [Node.bare, if_pos hname, node, if_pos hname]
            exact hargument
          · rw [Node.bare, if_neg hname, node, if_neg hname, node, if_neg hname]
      | _ :: _ :: _ => rfl
  | function parameters type =>
      have htype : ∀ m ∈ type, node settings (m.bare settings.wrapper) = node settings m :=
        fun m hm => hchild m (by simp [Node.children, Option.mem_def.mp hm])
      have hparameters : ∀ m ∈ parameters,
          node settings (m.bare settings.wrapper) = node settings m :=
        fun m hm => hchild m (by simp [Node.children, hm])
      rw [Node.bare, node, node, annotated_bare htype, nodes_bare hparameters]
  | typeLiteral list | tuple list | union list =>
      have hlist : ∀ m ∈ list, node settings (m.bare settings.wrapper) = node settings m := hchild
      rw [Node.bare, node, node, nodes_bare hlist]
  | array element =>
      rw [Node.bare, node, node, hchild element (by simp [Node.children])]
  | interface name bases members =>
      have hmembers : ∀ m ∈ members, node settings (m.bare settings.wrapper) = node settings m :=
        fun m hm => hchild m (by simp [Node.children, hm])
      have hbases : ∀ m ∈ bases, node settings (m.bare settings.wrapper) = node settings m :=
        fun m hm => hchild m (by simp [Node.children, hm])
      rw [Node.bare, node, node, nodes_bare hmembers, nodes_bare hbases]
  | «alias» name type =>
      rw [Node.bare, node, node, hchild type (by simp [Node.children])]
  | heritage expression =>
      rw [Node.bare, node, node, hchild expression (by simp [Node.children])]
  | parenthesized type =>
      rw [Node.bare, node, hchild type (by simp [Node.children])]
  | sourceFile => cases h _ .here

/-- Statements that are declarations or unknown are compiled as their bare forms, if no source file
occurs in them. -/
theorem statement_list_bare (fileName : String) {ns : List Node}
    (hkinds : ∀ n ∈ ns, Node.isDeclaration n.kind = true ∨ n.kind = .unknown)
    (hfiles : ∀ n ∈ ns, n.Lacks (· == .sourceFile)) :
    statementList settings fileName (Node.bareAll settings.wrapper ns) =
      statementList settings fileName ns := by
  induction ns with
  | nil => rfl
  | cons n rest ih =>
      have hrest := ih (fun m hm => hkinds m (List.mem_cons_of_mem _ hm))
        fun m hm => hfiles m (List.mem_cons_of_mem _ hm)
      have hnode : node settings (n.bare settings.wrapper) = node settings n :=
        node_bare (hfiles n List.mem_cons_self)
      -- Whether a statement is skipped depends on its kind, which declarations keep.
      have hkind : (n.bare settings.wrapper).kind = n.kind ∧
          (n.bare settings.wrapper).kindName = n.kindName := by
        obtain hdeclaration | hunknown := hkinds n List.mem_cons_self
        · cases n <;> first | exact ⟨rfl, rfl⟩ | cases hdeclaration
        · cases n <;> first | exact ⟨rfl, rfl⟩ | cases hunknown
      rw [Node.bareAll, statementList, statementList, hkind.1, hkind.2, hnode, hrest]

/-- A file of declarations and unknown statements is compiled as its bare form, if no source file
occurs in them. -/
theorem bare_file (settings : CompileSettings σ) (f : SourceFile)
    (hkinds : ∀ n ∈ f.statements, Node.isDeclaration n.kind = true ∨ n.kind = .unknown)
    (hfiles : ∀ n ∈ f.statements, n.Lacks (· == .sourceFile)) :
    file settings (f.bare settings.wrapper) = file settings f := by
  simp only [file, SourceFile.bare, statement_list_bare f.fileName hkinds hfiles]

/-- Take a file of declarations and unknown statements in which no further source file occurs. When
brackets and wrappers around single arguments are replaced by what is inside them, and base types
lose their arguments, every compilation of the file runs as before, with the same outcome and the
same progress, and its resolver is asked for the same nodes in the same order. -/
theorem file_bare (settings : CompileSettings σ) (f : SourceFile)
    (hkinds : ∀ n ∈ f.statements, Node.isDeclaration n.kind = true ∨ n.kind = .unknown)
    (hfiles : ∀ n ∈ f.statements, n.Lacks (· == .sourceFile)) (p : Progress σ) :
    (file settings (f.bare settings.wrapper)).run p = (file settings f).run p ∧
      asked settings (f.bare settings.wrapper) p = asked settings f p := by
  have hplain := bare_file settings f hkinds hfiles
  have hrecorded : file settings.recording (f.bare settings.wrapper) = file settings.recording f :=
    bare_file settings.recording f hkinds hfiles
  constructor
  · rw [hplain]
  · rw [asked, asked, hrecorded]

/-- An interface with an unsupported argument of its base type and a wrapper in brackets, and an
alias of an unsupported generic type with brackets inside. -/
def wrappedFile : SourceFile :=
  ⟨"wrapped.ts", [
    .interface (.identifier "A")
      [.heritage (.identifier "B")
        [.reference (.identifier "Set") [.keyword .string "string"] "Set<string>"]
        "B<Set<string>>"]
      [.property (.identifier "x")
        (some (.parenthesized (.reference (.identifier "Promise")
          [.parenthesized (.keyword .number "number") "(number)"] "Promise<(number)>")
          "(Promise<(number)>)")) true "x?: (Promise<(number)>)"]
      "interface A extends B<Set<string>> { x?: (Promise<(number)>) }",
    .unknown "empty_statement" ";",
    .alias (.identifier "M")
      (.reference (.identifier "Map")
        [.parenthesized (.reference (.identifier "A") [] "A") "(A)"] "Map<(A)>")
      "type M = Map<(A)>"], ""⟩

/-- The file with wrappers is refused for its generic type, under the text that it was written as,
and so is its bare form. -/
theorem file_bare_wrapped :
    (∀ n ∈ wrappedFile.statements, Node.isDeclaration n.kind = true ∨ n.kind = .unknown) ∧
    (∀ n ∈ wrappedFile.statements, n.Lacks (· == .sourceFile)) ∧
    (wrappedFile.bare "Promise").statements = [
      .interface (.identifier "A") [.heritage (.identifier "B") [] "B<Set<string>>"]
        [.property (.identifier "x") (some (.keyword .number "number")) true
          "x?: (Promise<(number)>)"]
        "interface A extends B<Set<string>> { x?: (Promise<(number)>) }",
      .unknown "empty_statement" ";",
      .alias (.identifier "M")
        (.reference (.identifier "Map") [.reference (.identifier "A") [] "A"] "Map<(A)>")
        "type M = Map<(A)>"] ∧
    ((file ⟨Resolver.declared, "unknown", "Promise"⟩ (wrappedFile.bare "Promise")).run
      (.start [])).1 = .error (.unsupportedGenerics "Map<(A)>") ∧
    asked ⟨Resolver.declared, "unknown", "Promise"⟩ (wrappedFile.bare "Promise") (.start []) =
      [.identifier "A", .identifier "x", .identifier "M"] := by
  have hfits : ∀ n ∈ wrappedFile.statements, Node.Fits .statement n := by
    intro n hn
    simp only [wrappedFile, List.mem_cons, List.not_mem_nil, or_false] at hn
    obtain rfl | rfl | rfl := hn
    · refine .interface _ (.identifier _) ?_ ?_
      · simpa using .heritage _ _ (by simpa using .reference _ _ (by simpa using .keyword _ _))
      · simpa using .property _ _ (.identifier _) (by
          simpa using .parenthesized _ (.reference _ _ (by
            simpa using .parenthesized _ (.keyword _ _))))
    · exact .unknown _ _ _
    · refine .typeAlias _ (.identifier _) (.reference _ _ ?_)
      simpa using .parenthesized _ (.reference _ _ (by simp))
  have hkinds : ∀ n ∈ wrappedFile.statements,
      Node.isDeclaration n.kind = true ∨ n.kind = .unknown := by
    simp [wrappedFile, Node.kind, Node.isDeclaration]
  have hfiles : ∀ n ∈ wrappedFile.statements, n.Lacks (· == .sourceFile) :=
    fun n hn => (hfits n hn).lacks_source_file
  obtain ⟨hrun, hasked⟩ := file_bare ⟨Resolver.declared, "unknown", "Promise"⟩ wrappedFile hkinds
    hfiles (.start [])
  refine ⟨hkinds, hfiles, rfl, ?_, ?_⟩
  · rw [hrun]
    rfl
  · rw [hasked]
    rfl

end Compile

end TypeSuite
