import TypeSuite.Proofs.Build.Stages
import TypeSuite.Proofs.Compile.Files
import TypeSuite.Proofs.Compile.Suite

/-!
# Names that a module binds

A generated module binds the namespace of its import, its exported constants and its type suite.
The exports of a file keep the constants apart from each other, but nothing keeps them apart from
the two other names. `bound_names_distinct_iff` says that these are the only names that can be
bound twice.
-/

namespace TypeSuite

/-- The name that the checker is imported under. -/
def namespaceName : String := "t"

/-- The name of the type suite. -/
def suiteName : String := "exportedTypeSuite"

/-- The names that a module binds at its top level, in order, from those of its constants. -/
def boundNames (constants : List String) : List String :=
  namespaceName :: (constants ++ [suiteName])

/-- The import that binds a name. -/
def importBinding (name runtimeModule : String) : String :=
  "import * as " ++ name ++ " from " ++ Text.quote runtimeModule ++ ";\n" ++
    "// tslint:disable:object-literal-key-quotes\n\n"

/-- The suite of some names that binds a name. -/
def suiteBinding (name : String) (names : List String) : String :=
  "const " ++ name ++ ": t.ITypeSuite = \x7b\n" ++
    String.join (names.map fun entry => Text.indentUnit ++ entry ++ ",\n") ++
    "\x7d;\nexport default " ++ name ++ ";\n"

/-- The text of a module from the names of its constants and their written values. -/
def boundModule (runtimeModule : String) (constants values : List String) : String :=
  importBinding namespaceName runtimeModule ++
    "\n\n".intercalate (List.zipWith exportedConstant constants values) ++ "\n\n" ++
    suiteBinding suiteName constants

/-- The first lines of a module bind the namespace. -/
theorem import_lines_binding (runtimeModule : String) :
    importLines runtimeModule = importBinding namespaceName runtimeModule := by
  have hstart : "import * as t from " = "import * as " ++ namespaceName ++ " from " := rfl
  unfold importLines importBinding
  rw [hstart]

/-- The last lines of a module bind the type suite. -/
theorem suite_lines_binding (names : List String) :
    suiteLines names = suiteBinding suiteName names := by
  have hstart : "const exportedTypeSuite: t.ITypeSuite = \x7b\n" =
      "const " ++ suiteName ++ ": t.ITypeSuite = \x7b\n" := rfl
  have hstop : "\x7d;\nexport default exportedTypeSuite;\n" =
      "\x7d;\nexport default " ++ suiteName ++ ";\n" := rfl
  unfold suiteLines suiteBinding
  rw [hstart, hstop]
  simp only [String.append_assoc]

/-- Distinct constants are bound once each, unless one of them takes a name that every module
binds. -/
theorem nodup_bound_names_iff {constants : List String} (h : constants.Nodup) :
    (boundNames constants).Nodup ↔ namespaceName ∉ constants ∧ suiteName ∉ constants := by
  have hfixed : namespaceName ≠ suiteName := by decide
  rw [boundNames, List.nodup_cons, List.mem_append, List.mem_singleton]
  have hconcat : (constants ++ [suiteName]).Nodup ↔ suiteName ∉ constants := by
    rw [(List.perm_append_singleton suiteName constants).nodup_iff, List.nodup_cons]
    exact and_iff_left h
  rw [hconcat, not_or]
  exact and_congr_left fun _ => and_iff_left hfixed

/-- A module whose exports are its declarations binds the names of its declarations. -/
theorem CheckerModule.render_bound {m : CheckerModule} (hsame : m.manifest = m.declarations)
    {runtimeModule text : String} (h : m.render runtimeModule = .ok text) :
    ∃ values, m.declarations.mapM (·.value.render) = .ok values ∧
      text = boundModule runtimeModule (m.declarations.map (·.name)) values := by
  obtain ⟨values, hvalues, rfl⟩ := CheckerModule.render_constants h
  refine ⟨values, hvalues, ?_⟩
  rw [hsame, import_lines_binding, suite_lines_binding]
  rfl

namespace Builder

open Compile (declarationsAlone exportNames)

/-- A file that is read from a tree and becomes a text becomes a module that binds the names under
which its declarations are exported. No name is bound twice in it if and only if no declaration is
exported under the name of the import or of the type suite. -/
theorem bound_names_distinct_iff (b : Builder) {source : ByteArray} {fileName : String}
    {root : Tree} {f : SourceFile} (hlower : root.lower source fileName = .ok f)
    {session : Resolver.Cache} (hsession : session.IsFaithful) (events : List Event)
    {text : String}
    (htext : ((b.compileFile Resolver.declared session f).run events).1 = .ok text) :
    ∃ constants values, constants = exportNames (b.settings Resolver.declared) f.statements ∧
      (declarationsAlone (b.settings Resolver.declared) f.statements).mapM (·.value.render) =
        .ok values ∧
      text = boundModule b.runtimeModule constants values ∧ constants.Nodup ∧
      ((boundNames constants).Nodup ↔
        namespaceName ∉ constants ∧ suiteName ∉ constants) := by
  have hflat : Compile.AreFlat f.statements := fun n hn m hm =>
    ((root.lower_meets source fileName).holds hlower n hn).lacks_below hm
  rw [result_compile_file] at htext
  cases hfile : ((Compile.file (b.settings Resolver.declared) f).run (.start session)).1 with
  | error e =>
      rw [hfile] at htext
      cases htext
  | ok m =>
      obtain ⟨hcompatible, rfl⟩ := (Compile.compiles_iff rfl hsession hflat).mp hfile
      have hnames := Compile.names_declarations_alone rfl hflat hcompatible.alone
      rw [hfile] at htext
      obtain ⟨values, hvalues, hbound⟩ := CheckerModule.render_bound rfl
        (Step.map_error_eq_ok_iff.mp htext)
      exact ⟨_, values, rfl, hvalues, hnames ▸ hbound, hcompatible.distinct,
        nodup_bound_names_iff hcompatible.distinct⟩

/-- The tree of an interface without members whose name is a single letter. -/
def letterTree : Tree :=
  let head (kind : String) (start stop : Nat) (field : Option String) : Head :=
    ⟨kind, start, stop, 0, start, field, true, false, false⟩
  .node (head "program" 0 14 none)
    [.node (head "interface_declaration" 0 14 none)
      [.node (head "type_identifier" 10 11 (some "name")) [],
       .node (head "object_type" 12 14 (some "body")) []]]

/-- The names under which the declarations of a tree are exported, and what becomes of its file. -/
def boundBy (root : Tree) (source : String) : Lowered (List String × Except Failure String) :=
  (root.lower source.toUTF8 "a.ts").map fun f =>
    (exportNames ((ofConfig {}).settings Resolver.declared) f.statements,
      (((ofConfig {}).compileFile Resolver.declared [] f).run []).1)

/-- A tree with a module has a file behind it. -/
theorem file_of_bound_by {root : Tree} {source text : String} {constants : List String}
    (h : boundBy root source = .ok (constants, .ok text)) :
    ∃ f, root.lower source.toUTF8 "a.ts" = .ok f ∧
      exportNames ((ofConfig {}).settings Resolver.declared) f.statements = constants ∧
      (((ofConfig {}).compileFile Resolver.declared [] f).run []).1 = .ok text := by
  unfold boundBy at h
  cases hlower : root.lower source.toUTF8 "a.ts" with
  | error fault =>
      rw [hlower] at h
      cases h
  | ok f =>
      rw [hlower] at h
      obtain ⟨hconstants, htext⟩ := Prod.mk.inj (Except.ok.inj h)
      exact ⟨f, rfl, hconstants, htext⟩

/-- The written form of an interface without members. -/
def emptyValue : String := "t.iface([], \x7b\n\x7d)"

/-- The module of an interface with a name of its own binds three names once each. -/
theorem bound_names_distinct_iff_other :
    ∃ f text values, letterTree.lower "interface A \x7b\x7d".toUTF8 "a.ts" = .ok f ∧
      (((ofConfig {}).compileFile Resolver.declared [] f).run []).1 = .ok text ∧
      text = boundModule "ts-interface-checker" ["A"] values ∧ (boundNames ["A"]).Nodup := by
  have heval : boundBy letterTree "interface A \x7b\x7d" =
      .ok (["A"], .ok (boundModule "ts-interface-checker" ["A"] [emptyValue])) := by
    decide +kernel
  obtain ⟨f, hlower, hconstants, htext⟩ := file_of_bound_by heval
  obtain ⟨_, values, rfl, -, hbound, -, hiff⟩ :=
    bound_names_distinct_iff (ofConfig {}) hlower Resolver.faithful_nil [] htext
  rw [hconstants] at hbound hiff
  exact ⟨f, _, values, hlower, htext, hbound, hiff.mpr (by decide)⟩

/-- The module of an interface that is named like the import binds that name twice. -/
theorem namespace_bound_twice :
    ∃ f text values, letterTree.lower "interface t \x7b\x7d".toUTF8 "a.ts" = .ok f ∧
      (((ofConfig {}).compileFile Resolver.declared [] f).run []).1 = .ok text ∧
      text = boundModule "ts-interface-checker" ["t"] values ∧ ¬ (boundNames ["t"]).Nodup := by
  have heval : boundBy letterTree "interface t \x7b\x7d" =
      .ok (["t"], .ok (boundModule "ts-interface-checker" ["t"] [emptyValue])) := by
    decide +kernel
  obtain ⟨f, hlower, -, htext⟩ := file_of_bound_by heval
  exact ⟨f, _, [emptyValue], hlower, htext, rfl, by decide⟩

end Builder

end TypeSuite
