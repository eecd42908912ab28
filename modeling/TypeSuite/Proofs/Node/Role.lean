import TypeSuite.Proofs.Node.Occurrence

/-!
# Roles of nodes

A node that is read from a source stands in one of six roles, and its role says which kinds may
fill its fields. Unknown nodes may stand in every role. `Fits.lacks_below` says that declarations
and source files occur nowhere below a node with a role.
-/

namespace TypeSuite

/-- How a node stands in a file. -/
inductive Role where
  | statement | base | member | parameter | type | name
deriving DecidableEq, Repr

namespace Node

/-- A node may stand in a role: its own kind does, and the nodes in its fields may stand in the
roles of these fields. -/
inductive Fits : Role → Node → Prop where
  | unknown (role : Role) (form text : String) : Fits role (.unknown form text)
  | identifier (text : String) : Fits .name (.identifier text)
  | stringLiteral (text : String) : Fits .name (.stringLiteral text)
  | numericLiteral (text : String) : Fits .name (.numericLiteral text)
  | computedName (text : String) : Fits .name (.computedName text)
  | interface {name : Node} {bases members : List Node} (text : String) :
      Fits .name name → (∀ n ∈ bases, Fits .base n) → (∀ n ∈ members, Fits .member n) →
      Fits .statement (.interface name bases members text)
  | typeAlias {name type : Node} (text : String) :
      Fits .name name → Fits .type type → Fits .statement (.alias name type text)
  | heritage {arguments : List Node} (base text : String) :
      (∀ n ∈ arguments, Fits .type n) → Fits .base (.heritage (.identifier base) arguments text)
  | property {name : Node} {type : Option Node} (optional : Bool) (text : String) :
      Fits .name name → (∀ n ∈ type, Fits .type n) →
      Fits .member (.property name type optional text)
  | method {name : Node} {parameters : List Node} {type : Option Node} (text : String) :
      Fits .name name → (∀ n ∈ parameters, Fits .parameter n) → (∀ n ∈ type, Fits .type n) →
      Fits .member (.method name parameters type text)
  | parameter {name : Node} {type : Option Node} (optional : Bool) (text : String) :
      Fits .name name → (∀ n ∈ type, Fits .type n) →
      Fits .parameter (.parameter name type optional text)
  | reference {arguments : List Node} (name text : String) :
      (∀ n ∈ arguments, Fits .type n) → Fits .type (.reference (.identifier name) arguments text)
  | function {parameters : List Node} {type : Option Node} (text : String) :
      (∀ n ∈ parameters, Fits .parameter n) → (∀ n ∈ type, Fits .type n) →
      Fits .type (.function parameters type text)
  | typeLiteral {members : List Node} (text : String) :
      (∀ n ∈ members, Fits .member n) → Fits .type (.typeLiteral members text)
  | array {element : Node} (text : String) :
      Fits .type element → Fits .type (.array element text)
  | tuple {elements : List Node} (text : String) :
      (∀ n ∈ elements, Fits .type n) → Fits .type (.tuple elements text)
  | union {types : List Node} (text : String) :
      (∀ n ∈ types, Fits .type n) → Fits .type (.union types text)
  | literal (text : String) : Fits .type (.literal text)
  | parenthesized {type : Node} (text : String) :
      Fits .type type → Fits .type (.parenthesized type text)
  | keyword (keyword : Keyword) (text : String) : Fits .type (.keyword keyword text)

/-- The kinds that may only stand at the top of a file. -/
def isTopLevel (kind : Kind) : Bool :=
  isDeclaration kind || kind == .sourceFile

/-- The kinds that stand at the top of a file are the declarations and the source file. -/
theorem is_top_level_eq_false_iff {kind : Kind} :
    isTopLevel kind = false ↔ isDeclaration kind = false ∧ kind ≠ .sourceFile := by
  rw [isTopLevel, Bool.or_eq_false_iff, beq_eq_false_iff_ne]

/-- Only statements may be of a kind that stands at the top of a file. -/
theorem Fits.kind {role : Role} {n : Node} (h : Fits role n) (hrole : role ≠ .statement) :
    isTopLevel n.kind = false := by
  cases h <;> first | rfl | exact absurd rfl hrole

/-- No node with a role is a source file. -/
theorem Fits.kind_ne_source_file {role : Role} {n : Node} (h : Fits role n) :
    n.kind ≠ .sourceFile := by
  cases h <;> simp [Node.kind]

/-- The nodes in the fields of a node with a role have roles below the top of a file. -/
theorem Fits.child {role : Role} {n : Node} (h : Fits role n) :
    ∀ c ∈ n.children, ∃ inner, inner ≠ .statement ∧ Fits inner c := by
  intro c hc
  cases h with
  | unknown | identifier | stringLiteral | numericLiteral | computedName | literal | keyword =>
      simp [children] at hc
  | interface text hname hbases hmembers =>
      simp only [children, List.mem_cons, List.mem_append] at hc
      obtain rfl | hc | hc := hc
      · exact ⟨.name, by decide, hname⟩
      · exact ⟨.base, by decide, hbases c hc⟩
      · exact ⟨.member, by decide, hmembers c hc⟩
  | typeAlias text hname htype =>
      simp only [children, List.mem_cons, List.not_mem_nil, or_false] at hc
      obtain rfl | rfl := hc
      · exact ⟨.name, by decide, hname⟩
      · exact ⟨.type, by decide, htype⟩
  | heritage base text harguments | reference name text harguments =>
      simp only [children, List.mem_cons] at hc
      obtain rfl | hc := hc
      · exact ⟨.name, by decide, .identifier _⟩
      · exact ⟨.type, by decide, harguments c hc⟩
  | property optional text hname htype | parameter optional text hname htype =>
      simp only [children, List.mem_cons, Option.mem_toList] at hc
      obtain rfl | hc := hc
      · exact ⟨.name, by decide, hname⟩
      · exact ⟨.type, by decide, htype c hc⟩
  | method text hname hparameters htype =>
      simp only [children, List.mem_cons, List.mem_append, Option.mem_toList] at hc
      obtain rfl | hc | hc := hc
      · exact ⟨.name, by decide, hname⟩
      · exact ⟨.parameter, by decide, hparameters c hc⟩
      · exact ⟨.type, by decide, htype c hc⟩
  | function text hparameters htype =>
      simp only [children, List.mem_append, Option.mem_toList] at hc
      obtain hc | hc := hc
      · exact ⟨.parameter, by decide, hparameters c hc⟩
      · exact ⟨.type, by decide, htype c hc⟩
  | typeLiteral text hmembers => exact ⟨.member, by decide, hmembers c hc⟩
  | array text htype | parenthesized text htype =>
      simp only [children, List.mem_singleton] at hc
      exact ⟨.type, by decide, hc ▸ htype⟩
  | tuple text htypes | union text htypes => exact ⟨.type, by decide, htypes c hc⟩

/-- In a node with a role below the top of a file there is no declaration and no source file. -/
theorem Fits.lacks {role : Role} {n : Node} (h : Fits role n) (hrole : role ≠ .statement) :
    Lacks isTopLevel n := by
  intro m hm
  induction hm generalizing role with
  | here => exact h.kind hrole
  | inside hc _ ih =>
      obtain ⟨inner, hinner, hfits⟩ := h.child _ hc
      exact ih hfits hinner

/-- Below a node with a role there is no declaration and no source file. -/
theorem Fits.lacks_below {role : Role} {n m : Node} (h : Fits role n) (hm : OccursBelow m n) :
    isTopLevel m.kind = false := by
  obtain ⟨c, hc, hoccurs⟩ := hm
  obtain ⟨inner, hinner, hfits⟩ := h.child c hc
  exact hfits.lacks hinner m hoccurs

end Node

end TypeSuite
