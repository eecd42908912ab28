import TypeSuite.Node.Equality
import TypeSuite.Number.Name
import TypeSuite.Text.Quoted

/-!
# Name resolution

A resolver says which name a node declares. It may keep a memory of its own between questions, so
it is a step on that memory.
-/

namespace TypeSuite

/-- A resolver with a memory: the name that a node declares, or `none` when it declares none. -/
abbrev Resolver (σ : Type) := Node → StateM σ (Option String)

namespace Resolver

/-- The name that a node declares by its own text. Identifiers name themselves, quoted names their
value and numeric names their number; nothing else has a static name. -/
def declaredName? : Node → Option String
  | .identifier text => some text
  | .stringLiteral text => some (Text.unquote text)
  | .numericLiteral text => some (Number.canonicalName text)
  | _ => none

/-- The answers that a session has given, each under the node that was asked for. -/
abbrev Cache := List (Node × Option String)

/-- The resolver of declared names, which answers a node that it has seen from its cache. -/
def declared : Resolver Cache := fun node cache =>
  match cache.lookup node with
  | some answer => (answer, cache)
  | none =>
    let answer := declaredName? node
    (answer, cache ++ [(node, answer)])

/-- A resolver that answers from a table of texts and records every question. Identifiers outside
the table name themselves. -/
def tabled (table : List (String × Option String)) : Resolver (List (Kind × String)) :=
  fun node asked =>
    let answer := match table.lookup node.text with
      | some answer => answer
      | none => match node with
        | .identifier text => some text
        | _ => none
    (answer, asked ++ [(node.kind, node.text)])

end Resolver

end TypeSuite
