import TypeSuite.Proofs.Node.Occurrence

/-!
# Evaluated nodes

Not every node in a tree is compiled with it. `evaluated` lists the ones that are, each before the
nodes below it and in the order in which the compiler comes to them.
-/

namespace TypeSuite.Node

/-- The nodes in the fields of a node that are compiled with it, in the order of their compilation:
results come before parameters and members before base types. Names and the type arguments of base
types are left out, and of a reference only the single argument of the wrapper counts. -/
def evaluatedFields (wrapper : String) : Node → List Node
  | .parameter _ type _ _ => type.toList
  | .property _ type _ _ => type.toList
  | .method _ parameters type _ => type.toList ++ parameters
  | .reference name [argument] _ => if name.text = wrapper then [argument] else []
  | .reference .. => []
  | .function parameters type _ => type.toList ++ parameters
  | .typeLiteral members _ => members
  | .array element _ => [element]
  | .tuple elements _ => elements
  | .union types _ => types
  | .interface _ bases members _ => members ++ bases
  | .alias _ type _ => [type]
  | .heritage expression _ _ => [expression]
  | .parenthesized type _ => [type]
  | .sourceFile _ statements _ => statements.filter (·.kind.isHandled)
  | .identifier _ | .stringLiteral _ | .numericLiteral _ | .computedName _ | .literal _
  | .keyword .. | .unknown .. => []

/-- Evaluated fields are fields. -/
theorem child_of_evaluated_field {wrapper : String} {n c : Node}
    (hc : c ∈ n.evaluatedFields wrapper) : c ∈ n.children := by
  cases n with
  | reference name arguments text =>
      unfold evaluatedFields at hc
      split at hc <;> simp_all [children]
  | _ => simp_all [evaluatedFields, children, or_comm]

/-- A node with all nodes that are compiled below it, in the order of their compilation. -/
def evaluated (wrapper : String) (n : Node) : List Node :=
  n :: (n.evaluatedFields wrapper).attach.flatMap fun c => evaluated wrapper c.1
termination_by sizeOf n
decreasing_by
  exact size_of_child (child_of_evaluated_field c.2)

/-- The evaluated nodes of a node are itself and those of its evaluated fields. -/
theorem evaluated_eq (wrapper : String) (n : Node) :
    n.evaluated wrapper = n :: (n.evaluatedFields wrapper).flatMap (evaluated wrapper) := by
  rw [evaluated]
  simp

end TypeSuite.Node
