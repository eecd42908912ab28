import TypeSuite.Tree.Basic

/-!
# Syntax problems

A tree with syntax errors is reported by its first few topmost problems in document order.
-/

namespace TypeSuite

/-- A place where the source does not follow the grammar. -/
structure Problem where
  row : Nat
  column : Nat
  /-- The kind of the token that is missing, if that is the problem. -/
  missing : Option String
deriving DecidableEq, Repr

namespace Problem

/-- The report of a problem, with its line and column counted from one. -/
def text (problem : Problem) : String :=
  let what := match problem.missing with
    | some kind => "missing " ++ kind
    | none => "syntax error"
  toString (problem.row + 1) ++ ":" ++ toString (problem.column + 1) ++ ": " ++ what

end Problem

/-- The problem that a root itself is, if any. -/
def Head.problem? (head : Head) : Option Problem :=
  if head.missing then some ⟨head.row, head.column, some head.kind⟩
  else if head.kind == "ERROR" then some ⟨head.row, head.column, none⟩
  else none

/-- The most problems that are reported. -/
def maxProblems : Nat := 5

namespace Tree

mutual
/-- The number of roots in a tree. -/
def size : Tree → Nat
  | .node _ children => sizeAll children + 1

/-- The number of roots in a list of trees. -/
def sizeAll : List Tree → Nat
  | [] => 0
  | tree :: rest => size tree + sizeAll rest
end

/-- The number of roots in two lists of trees. -/
theorem sizeAll_append (left right : List Tree) :
    sizeAll (left ++ right) = sizeAll left + sizeAll right := by
  induction left with
  | nil => simp [sizeAll]
  | cons tree rest ih => simp [sizeAll, ih, Nat.add_assoc]

/-- The first `limit` problems of the trees still to visit. A problem hides those below it, and a
tree without errors is not entered. -/
def collect (limit : Nat) (pending : List Tree) : List Problem :=
  match limit, pending with
  | 0, _ => []
  | _, [] => []
  | limit + 1, .node head children :: rest =>
    match head.problem? with
    | some problem => problem :: collect limit rest
    | none =>
      if head.hasError then collect (limit + 1) (children ++ rest)
      else collect (limit + 1) rest
termination_by sizeAll pending
decreasing_by
  all_goals
    simp only [sizeAll, size, sizeAll_append]
    omega

/-- The reports of the problems of a tree; there is always at least one. -/
def diagnostics (tree : Tree) : List String :=
  match collect maxProblems [tree] with
  | [] => ["syntax error"]
  | problems => problems.map Problem.text

end Tree

/-- A source that is refused because it does not follow the grammar. -/
structure SyntaxRefusal where
  fileName : String
  diagnostics : List String
deriving DecidableEq, Repr

/-- The report of a refused source. -/
def SyntaxRefusal.message (r : SyntaxRefusal) : String :=
  "Can't process " ++ r.fileName ++ ": " ++ "; ".intercalate r.diagnostics

/-- The tree of a source of some size that is a single syntax error. -/
def Tree.ofSyntaxError (size : Nat) : Tree :=
  .node ⟨"ERROR", 0, size, 0, 0, none, true, false, true⟩ []

/-- Refuses a tree in which a syntax error lies. -/
def Tree.check (tree : Tree) (fileName : String) : Except SyntaxRefusal Unit :=
  if tree.head.hasError then .error ⟨fileName, tree.diagnostics⟩ else .ok ()

end TypeSuite
