import TypeSuite.Source.StatementRules
import TypeSuite.Tree.Problem

/-!
# Reading a source

The rules of the grammar are tied together here, and a whole source is read as a list of
statements. A source that does not follow the grammar is a syntax error as a whole.
-/

namespace TypeSuite.Source

open TypeSuite.Source.Parser

/-- The rule of a part of the grammar, over the rules of all parts. -/
def ruleOf (g : Grammar) : Grammar
  | .type => TypeRules.type g
  | .unionType => TypeRules.unionType g
  | .operandType => TypeRules.operandType g
  | .bodyType => TypeRules.body g
  | .parameters => TypeRules.parameters g
  | .typeParameters => TypeRules.typeParameters g
  | .typeArguments => TypeRules.typeArguments g
  | .pattern => TypeRules.pattern g
  | .expression => ExpressionRules.expression g
  | .operand => ExpressionRules.operand g
  | .block => StatementRules.block g
  | .classBody => ExpressionRules.classBody g
  | .statement => StatementRules.statement g

/-- The grammar down to a depth of nested rules. -/
def grammar : Nat → Grammar
  | 0 => fun _ => failure
  | depth + 1 => ruleOf (grammar depth)

/-- A depth that the rules over a number of tokens cannot exceed. Every token accounts for fewer
than twelve nested rules. -/
def depthFor (tokens : Nat) : Nat :=
  12 * (tokens + 1)

/-- Statements up to the end of the source. -/
def statements (g : Grammar) : Parser (List Tree) :=
  collect do
    if (← peek).sort == .finish then return none else some <$> g .statement

/-- The glyphs behind the first line when that line names an interpreter. -/
def interpreterLine? (gs : List Glyph) : Option (List Glyph) :=
  if startsWith ['#', '!'] gs then some (gs.dropWhile fun g => g.char != '\n') else none

/-- The tree of the line that names an interpreter. -/
def interpreterTree (first : Glyph) (stop : Nat) : Tree :=
  .node ⟨"hash_bang_line", first.start, stop, first.row, first.column, none, true, false, false⟩ []

/-- The statements of a source from some glyph on. -/
def readStatements (size start : Nat) (gs : List Glyph) : Option (List Tree) := do
  let ts ← tokens size start gs
  let (trees, cursor) ← statements (grammar (depthFor ts.length)) ⟨ts, start⟩
  if (cursor.rest.headD (finish size size)).sort = .finish then some trees else none

/-- The tree of a source that follows the grammar. -/
def read? (source : ByteArray) : Option Tree := do
  let size := source.size
  let gs := (glyphs source).dropWhile fun g => isSpace g.char
  let start := offsetOf size gs
  let first := gs.headD ⟨' ', size, size, 0, 0⟩
  let trees ← match interpreterLine? gs with
    | some after =>
      let stop := offsetOf size after
      (interpreterTree first stop :: ·) <$> readStatements size stop after
    | none => readStatements size start gs
  return .node ⟨"program", start, size, first.row, first.column, none, true, false, false⟩ trees

/-- The tree of a source. -/
def read (source : ByteArray) : Tree :=
  (read? source).getD (.ofSyntaxError source.size)

end TypeSuite.Source
