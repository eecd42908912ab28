import TypeSuite.Store.Basic
import TypeSuite.Text.Display

/-!
# Reports of file errors

A file error is reported by its number, its description and the path between quotes.
-/

namespace TypeSuite

namespace FileFault

/-- The number and the description of a fault, where the operating system has them. -/
def description? : FileFault → Option (Nat × String)
  | .notFound => some (2, "No such file or directory")
  | .alreadyExists => some (17, "File exists")
  | .notDirectory => some (20, "Not a directory")
  | .isDirectory => some (21, "Is a directory")
  | .nameTooLong => some (36, "File name too long")
  | .nullInName => none

end FileFault

/-- The report of a file error; `none` for a path that the operating system never sees. -/
def FileError.message? (e : FileError) : Option String :=
  e.fault.description?.map fun d =>
    "[Errno " ++ toString d.1 ++ "] " ++ d.2 ++ ": " ++ Text.display e.path.toString

end TypeSuite
