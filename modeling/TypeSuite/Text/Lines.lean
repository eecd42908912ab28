/-!
# Lines of a text

Nested blocks are printed by indenting every line of an inner text after its first one.
-/

namespace TypeSuite.Text

/-- One level of indentation. -/
def indentUnit : String := "  "

/-- A character followed by one level of indentation when it ends a line. -/
def indentChar (c : Char) : List Char :=
  if c = '\n' then c :: indentUnit.toList else [c]

/-- Indents every line of a text after the first by one level. -/
def indent (text : String) : String :=
  String.ofList (text.toList.flatMap indentChar)

end TypeSuite.Text
