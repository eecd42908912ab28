import TypeSuite.Node.Basic

/-!
# Occurrence of nodes

A node occurs in itself and in every node that has it in a field, at any depth. Names and the type
arguments of base types count as fields like all others. `Lacks` says that no node of certain kinds
occurs in a node, and `children_induction` shows a property of all nodes from fields to nodes.
-/

namespace TypeSuite.Node

/-- The nodes in the fields of a node. -/
def children : Node → List Node
  | .parameter name type _ _ => name :: type.toList
  | .property name type _ _ => name :: type.toList
  | .method name parameters type _ => name :: (parameters ++ type.toList)
  | .reference name arguments _ => name :: arguments
  | .function parameters type _ => parameters ++ type.toList
  | .typeLiteral members _ => members
  | .array element _ => [element]
  | .tuple elements _ => elements
  | .union types _ => types
  | .interface name bases members _ => name :: (bases ++ members)
  | .alias name type _ => [name, type]
  | .heritage expression arguments _ => expression :: arguments
  | .parenthesized type _ => [type]
  | .sourceFile _ statements _ => statements
  | .identifier _ | .stringLiteral _ | .numericLiteral _ | .computedName _ | .literal _
  | .keyword .. | .unknown .. => []

/-- A node is larger than the nodes in its fields. -/
theorem size_of_child {n c : Node} (hc : c ∈ n.children) : sizeOf c < sizeOf n := by
  cases n with
  | parameter name type | property name type =>
      cases type <;> simp [children] at hc <;> grind
  | method name parameters type =>
      have hlist : c ∈ parameters → sizeOf c < sizeOf parameters := List.sizeOf_lt_of_mem
      cases type <;> simp [children] at hc <;> grind
  | reference name arguments | heritage name arguments =>
      have hlist : c ∈ arguments → sizeOf c < sizeOf arguments := List.sizeOf_lt_of_mem
      simp [children] at hc
      grind
  | function parameters type =>
      have hlist : c ∈ parameters → sizeOf c < sizeOf parameters := List.sizeOf_lt_of_mem
      cases type <;> simp [children] at hc <;> grind
  | typeLiteral list | tuple list | union list | sourceFile _ list =>
      have hlist : c ∈ list → sizeOf c < sizeOf list := List.sizeOf_lt_of_mem
      simp [children] at hc
      grind
  | interface name bases members =>
      have hbases : c ∈ bases → sizeOf c < sizeOf bases := List.sizeOf_lt_of_mem
      have hmembers : c ∈ members → sizeOf c < sizeOf members := List.sizeOf_lt_of_mem
      simp [children] at hc
      grind
  | «alias» | array | parenthesized =>
      simp [children] at hc
      grind
  | _ => simp [children] at hc

/-- What holds of a node whenever it holds of the nodes in its fields holds of every node. -/
theorem children_induction {holds : Node → Prop}
    (h : ∀ n, (∀ c ∈ n.children, holds c) → holds n) (n : Node) : holds n :=
  h n fun c _ => children_induction h c
termination_by sizeOf n
decreasing_by
  exact size_of_child ‹_›

/-- A node occurs in a node: it is that node, or it occurs in one of its fields. -/
inductive Occurs (n : Node) : Node → Prop where
  | here : Occurs n n
  | inside {c parent : Node} : c ∈ parent.children → Occurs n c → Occurs n parent

/-- A node occurs in a field of a node. -/
def OccursBelow (n parent : Node) : Prop :=
  ∃ c ∈ parent.children, Occurs n c

/-- The kinds that declare a name to export. -/
def isDeclaration : Kind → Bool
  | .interface => true
  | .alias => true
  | _ => false

/-- No node of certain kinds occurs in a node. -/
def Lacks (excluded : Kind → Bool) (n : Node) : Prop :=
  ∀ m, Occurs m n → excluded m.kind = false

/-- A node lacks what is neither its own kind nor a kind of a node below it. -/
theorem lacks_of_below {excluded : Kind → Bool} {n : Node} (hself : excluded n.kind = false)
    (hbelow : ∀ m, OccursBelow m n → excluded m.kind = false) : Lacks excluded n := by
  intro m hm
  cases hm with
  | here => exact hself
  | inside hc hoccurs => exact hbelow m ⟨_, hc, hoccurs⟩

end TypeSuite.Node
