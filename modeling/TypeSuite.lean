import TypeSuite.Build.Run
import TypeSuite.Cli.Footprint
import TypeSuite.Config.Assign
import TypeSuite.Config.File
import TypeSuite.Main
import TypeSuite.Proofs.Build.Directories
import TypeSuite.Proofs.Build.Ending
import TypeSuite.Proofs.Build.Inputs
import TypeSuite.Proofs.Build.Outcome
import TypeSuite.Proofs.Build.Overrides
import TypeSuite.Proofs.Build.Reconfiguration
import TypeSuite.Proofs.Compile.Calls
import TypeSuite.Proofs.Compile.Correspondence
import TypeSuite.Proofs.Compile.Files
import TypeSuite.Proofs.Compile.Lookups
import TypeSuite.Proofs.Compile.Noninterference
import TypeSuite.Proofs.Compile.Optionality
import TypeSuite.Proofs.Compile.QuestionOrder
import TypeSuite.Proofs.Compile.Registration
import TypeSuite.Proofs.Compile.Suite
import TypeSuite.Proofs.Compile.Supported
import TypeSuite.Proofs.Compile.Transparency
import TypeSuite.Proofs.Config.Loading
import TypeSuite.Proofs.Config.Saving
import TypeSuite.Proofs.Number.Literal
import TypeSuite.Proofs.Text.StringLiteral
import TypeSuite.Proofs.Tree.Diagnostics
import TypeSuite.Proofs.Tree.Simplification
import TypeSuite.Proofs.Tree.Texts
import TypeSuite.Proofs.Tree.Unions
import TypeSuite.Proofs.Validator.Lines
import TypeSuite.Proofs.Validator.RoundTrip
import TypeSuite.Source.Read
import TypeSuite.Yaml.Decode
import TypeSuite.Yaml.Writer
