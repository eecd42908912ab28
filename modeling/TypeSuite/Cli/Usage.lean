/-!
# Usage

The fixed texts of the command line.
-/

namespace TypeSuite.Cli

/-- The name of the program on the command line. -/
def programName : String := "ts-interface-builder"

/-- The version of the program. -/
def programVersion : String := "1.0.0"

/-- The line that says which version runs. -/
def versionText : String := programName ++ " " ++ programVersion ++ "\n"

/-- The line that says how the program is called. -/
def usageText : String :=
  "usage: " ++ programName ++ " [options] <typescript-file...>\n"

/-- The lines of the help below the usage. -/
def helpLines : List String :=
  ["",
   "Create runtime validator module from TypeScript interfaces",
   "",
   "positional arguments:",
   "  typescript-file       TypeScript files to compile",
   "",
   "options:",
   "  -h, --help            show this help message and exit",
   "  --version             show program's version number and exit",
   "  -s SUFFIX, --suffix SUFFIX",
   "                        Suffix to append to generated files (default -ti);",
   "                        write --suffix=-x for values starting with -",
   "  -o PATH, --outDir PATH, --out-dir PATH",
   "                        Directory for output files; same as source file if",
   "                        omitted",
   "  -v, --verbose         Produce verbose output",
   "  -c CONFIG, --config CONFIG",
   "                        Path to a YAML configuration file"]

/-- The help of the program. -/
def helpText : String :=
  usageText ++ String.join (helpLines.map (· ++ "\n"))

end TypeSuite.Cli
