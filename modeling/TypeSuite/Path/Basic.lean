/-!
# Paths

A path is a root and a list of names. Empty names and single dots vanish when a path is read; double
dots stay.
-/

namespace TypeSuite

/-- A path of slash-separated names. -/
structure Path where
  /-- Nothing for a relative path; one slash, or two when the path starts with exactly two. -/
  root : String
  parts : List String
deriving DecidableEq, Repr, Inhabited

namespace Path

/-- The pieces of a text between slashes. -/
def pieces : List Char → List (List Char)
  | [] => [[]]
  | '/' :: rest => [] :: pieces rest
  | c :: rest =>
    match pieces rest with
    | [] => [[c]]
    | piece :: more => (c :: piece) :: more

/-- The root of a path's text. -/
def rootOf : List Char → String
  | '/' :: '/' :: '/' :: _ => "/"
  | '/' :: '/' :: _ => "//"
  | '/' :: _ => "/"
  | _ => ""

/-- Whether a piece of a path is a name. -/
def isName (piece : List Char) : Bool :=
  piece != [] && piece != ['.']

/-- Reads a path. -/
def ofString (text : String) : Path :=
  ⟨rootOf text.toList, ((pieces text.toList).filter isName).map String.ofList⟩

/-- The text of a path; a path without names is a dot. -/
def toString (p : Path) : String :=
  if p.root.isEmpty && p.parts.isEmpty then "." else p.root ++ "/".intercalate p.parts

/-- The last name of a path; empty when there is none. -/
def name (p : Path) : String :=
  p.parts.getLast?.getD ""

/-- The directory of a path. -/
def parent (p : Path) : Path :=
  { p with parts := p.parts.dropLast }

/-- A name without its last suffix. A dot at either end of the name starts no suffix. -/
def stemOf (name : List Char) : List Char :=
  let after := name.reverse.takeWhile (· != '.')
  match name.reverse.drop after.length with
  | '.' :: before => if before.isEmpty || after.isEmpty then name else before.reverse
  | _ => name

/-- The last name of a path without its last suffix. -/
def stem (p : Path) : String :=
  String.ofList (stemOf p.name.toList)

/-- A path below another; an absolute one replaces it. -/
def join (base below : Path) : Path :=
  if below.root.isEmpty then { base with parts := base.parts ++ below.parts } else below

end Path

end TypeSuite
