import TypeSuite.Proofs.Validator.Reader

/-!
# Written modules read back

A written module is an import line, a block for each declaration and the suite of all names.
`CheckerModule.read?` reads such a text, and `read_render` says that it gives back everything that
went into it, so that no two modules with different content are written alike.
-/

namespace TypeSuite

open Text (IsLiteral IsName indentUnit manyText quote readMany? readName readQuoted? skip?)
open Validator (OnOneLine layout readExpression?)

/-- What a written module holds. -/
structure ModuleContent where
  /-- The module that the checker is imported from. -/
  runtimeModule : String
  declarations : List Declaration
  /-- The names in the type suite. -/
  names : List String

/-- What a module holds when it is written for a runtime module. -/
def CheckerModule.content (m : CheckerModule) (runtimeModule : String) : ModuleContent :=
  ⟨runtimeModule, m.declarations, m.manifest.map (·.name)⟩

/-- Reads what follows the first word of an exported constant, and the empty line behind it. -/
def Declaration.read? (text : List Char) : Option (Declaration × List Char) := do
  let (name, rest) := readName text
  let rest ← skip? " = " rest
  let (value, rest) ← readExpression? rest.length rest
  return (⟨name, value⟩, ← skip? ";\n\n" rest)

/-- Reads what follows the indentation of a name in the type suite. -/
def readSuiteName? (text : List Char) : Option (String × List Char) := do
  let (name, rest) := readName text
  return (name, ← skip? ",\n" rest)

/-- What stands in front of the name of the runtime module. -/
def importStart : String := "import * as t from "

/-- What stands behind the import of the runtime module. -/
def importEnd : String := "// tslint:disable:object-literal-key-quotes\n\n"

/-- What stands in front of the names of the type suite. -/
def suiteStart : String := "const exportedTypeSuite: t.ITypeSuite = \x7b\n"

/-- What stands behind the names of the type suite. -/
def suiteEnd : String := "\x7d;\nexport default exportedTypeSuite;\n"

/-- Takes off the empty line that a module has in place of its declarations when it has none. -/
def skipEmptyBlock? (declarations : List Declaration) (text : List Char) : Option (List Char) :=
  if declarations.isEmpty then skip? "\n\n" text else some text

/-- Reads a written module. -/
def CheckerModule.read? (text : String) : Option ModuleContent := do
  let rest ← skip? importStart text.toList
  let (runtimeModule, rest) ← readQuoted? rest
  let rest ← skip? ";\n" rest
  let rest ← skip? importEnd rest
  let (declarations, rest) ← readMany? "export const " Declaration.read? rest.length rest
  let rest ← skipEmptyBlock? declarations rest
  let rest ← skip? suiteStart rest
  let (names, rest) ← readMany? indentUnit readSuiteName? rest.length rest
  let rest ← skip? suiteEnd rest
  if rest.isEmpty then some ⟨runtimeModule, declarations, names⟩ else none

/-- A declaration that can be read back: it has a name, and a value with a written form. -/
def Declaration.IsReadable (d : Declaration) : Prop :=
  IsName d.name ∧ d.value.IsExpression IsLiteral

/-- A module that can be read back. -/
def CheckerModule.IsReadable (m : CheckerModule) : Prop :=
  (∀ d ∈ m.declarations, d.IsReadable) ∧ ∀ d ∈ m.manifest, IsName d.name

/-! ## Declarations -/

/-- The exported constant of a declaration as it is laid out. -/
def Declaration.block (d : Declaration) : String :=
  "export const " ++ d.name ++ " = " ++ layout 0 d.value ++ ";"

/-- What follows the first word of an exported constant, with an empty line behind it. -/
def Declaration.blockEnd (d : Declaration) : List Char :=
  d.name.toList ++ (" = ".toList ++ ((layout 0 d.value).toList ++ ";\n\n".toList))

/-- The text of a block with an empty line behind it. -/
theorem Declaration.to_list_block (d : Declaration) :
    d.block.toList ++ "\n\n".toList = "export const ".toList ++ d.blockEnd := by
  have hblock : d.block = "export const " ++ d.name ++ " = " ++ layout 0 d.value ++ ";" := rfl
  simp [hblock, blockEnd]

/-- Declarations that can be read back are written as their blocks. -/
theorem render_blocks {ds : List Declaration} (h : ∀ d ∈ ds, d.IsReadable) :
    ds.mapM (·.render) = .ok (ds.map (·.block)) := by
  induction ds with
  | nil => rfl
  | cons d rest ih =>
      have hline : d.value.IsExpression OnOneLine :=
        (h d List.mem_cons_self).2.mono fun _ => IsLiteral.on_one_line
      have hrest := ih fun e he => h e (List.mem_cons_of_mem _ he)
      rw [List.mapM_cons, Declaration.render, Validator.render_layout hline, hrest]
      rfl

/-- The empty line of a module without declarations. -/
def emptyBlock (ds : List Declaration) : List Char :=
  if ds.isEmpty then "\n\n".toList else []

/-- The text of separated blocks with an empty line behind the last one. -/
theorem to_list_blocks (ds : List Declaration) :
    ("\n\n".intercalate (ds.map (·.block))).toList ++ "\n\n".toList =
      manyText "export const " Declaration.blockEnd ds ++ emptyBlock ds := by
  induction ds with
  | nil => simp [manyText, emptyBlock]
  | cons d ds ih =>
      cases ds with
      | nil => simpa [manyText, emptyBlock] using d.to_list_block
      | cons e ds =>
          rw [List.map_cons, List.map_cons, String.intercalate_cons_cons, ← List.map_cons,
            String.toList_append, String.toList_append, List.append_assoc, ih, ← List.append_assoc,
            d.to_list_block]
          simp [manyText, emptyBlock]

/-- Behind the blocks, the empty line of a module without declarations is taken off. -/
theorem skip_empty_block (ds : List Declaration) (rest : List Char) :
    skipEmptyBlock? ds (emptyBlock ds ++ rest) = some rest := by
  cases ds with
  | nil => exact Text.skip_append "\n\n" rest
  | cons => rfl

/-- The rest of a block is read back as its declaration. -/
theorem Declaration.read_block_end {d : Declaration} (h : d.IsReadable) (rest : List Char) :
    Declaration.read? (d.blockEnd ++ rest) = some (d, rest) := by
  have hname := Text.read_name_append h.1 (c := ' ') (by decide)
  have hle : d.value.span ≤ ((layout 0 d.value).toList ++ (";\n\n".toList ++ rest)).length := by
    have := Validator.span_le_length 0 h.2
    rw [List.length_append]
    omega
  have hvalue := Validator.read_expression_layout 0 h.2 hle
  -- The name ends at the space, so the space is shown while the name is read.
  have hequals (text : List Char) : " = ".toList ++ text = ' ' :: ("= ".toList ++ text) := by
    simp
  simp only [Declaration.read?, Declaration.blockEnd, List.append_assoc]
  rw [hequals, hname, ← hequals]
  simp only [Text.skip_append, hvalue, Option.bind_eq_bind, Option.bind_some]
  rfl

/-! ## The type suite -/

/-- What follows the indentation of a name in the type suite. -/
def suiteNameEnd (name : String) : List Char :=
  name.toList ++ ",\n".toList

/-- The names of a type suite, each on a line of its own. -/
theorem to_list_suite_names (names : List String) :
    (String.join (names.map fun name => indentUnit ++ name ++ ",\n")).toList =
      manyText indentUnit suiteNameEnd names := by
  simp [manyText, suiteNameEnd, List.flatMap_map]

/-- The rest of a line of the type suite is read back as its name. -/
theorem read_suite_name_end {name : String} (h : IsName name) (rest : List Char) :
    readSuiteName? (suiteNameEnd name ++ rest) = some (name, rest) := by
  have hread := Text.read_name_append h (c := ',') (by decide)
  have hcomma (text : List Char) : ",\n".toList ++ text = ',' :: '\n' :: text := by
    simp
  simp only [readSuiteName?, suiteNameEnd, List.append_assoc]
  rw [hcomma, hread, ← hcomma]
  simp only [Text.skip_append, Option.bind_eq_bind, Option.bind_some]
  rfl

/-! ## Whole modules -/

/-- The text of a module by its pieces. -/
def moduleText (content : ModuleContent) : List Char :=
  importStart.toList ++ ((quote content.runtimeModule).toList ++ (";\n".toList ++
    (importEnd.toList ++ (manyText "export const " Declaration.blockEnd content.declarations ++
    (emptyBlock content.declarations ++ (suiteStart.toList ++
    (manyText indentUnit suiteNameEnd content.names ++ suiteEnd.toList)))))))

/-- A module that can be read back is written as its pieces. -/
theorem render_module_text (runtimeModule : String) {m : CheckerModule} (h : m.IsReadable) :
    m.render runtimeModule = .ok (String.ofList (moduleText (m.content runtimeModule))) := by
  have hblocks := to_list_blocks m.declarations
  have hnames := to_list_suite_names (m.manifest.map (·.name))
  have hsuite : suiteLines (m.manifest.map (·.name)) = suiteStart ++
      String.join ((m.manifest.map (·.name)).map fun name => indentUnit ++ name ++ ",\n") ++
      suiteEnd := by
    rfl
  have hrun : m.render runtimeModule = .ok (importStart ++ quote runtimeModule ++ ";\n" ++
      importEnd ++ "\n\n".intercalate (m.declarations.map (·.block)) ++ "\n\n" ++
      suiteLines (m.manifest.map (·.name))) := by
    rw [CheckerModule.render, render_blocks h.1]
    rfl
  rw [hrun, Except.ok.injEq, ← String.toList_inj, String.toList_ofList, hsuite]
  simp only [String.toList_append, List.append_assoc, hnames]
  rw [← List.append_assoc (String.toList (String.intercalate _ _)), hblocks, List.append_assoc]
  rfl

/-- What follows the blocks of a module is no further block. -/
theorem no_further_block (ds : List Declaration) (rest : List Char) :
    skip? "export const " (emptyBlock ds ++ (suiteStart.toList ++ rest)) = none := by
  have hstart : suiteStart.toList.head? = some 'c' := by
    decide
  -- There is the line break of an empty line or the first letter of `const`.
  unfold emptyBlock
  split
  case isTrue => exact Text.skip_of_head_ne (c := 'e') (d := '\n') (by decide) rfl (by decide)
  case isFalse =>
    have hhead : (suiteStart.toList ++ rest).head? = some 'c' := by
      rw [List.head?_append, hstart, Option.some_or]
    exact Text.skip_of_head_ne (c := 'e') (by decide) hhead (by decide)

/-- The pieces of a module are read back as its content. -/
theorem read_module_text {content : ModuleContent}
    (hdeclarations : ∀ d ∈ content.declarations, d.IsReadable)
    (hnames : ∀ name ∈ content.names, IsName name) :
    CheckerModule.read? (String.ofList (moduleText content)) = some content := by
  have hdeclared := fun rest => Text.read_many_text (by decide)
    (fun d hd => Declaration.read_block_end (hdeclarations d hd))
    (no_further_block content.declarations rest) (by simp [suiteStart])
  have hlast : skip? indentUnit suiteEnd.toList = none :=
    Text.skip_of_head_ne (c := ' ') (d := '\x7d') (by decide) (by decide) (by decide)
  have hlisted := Text.read_many_text (by decide)
    (fun name hname => read_suite_name_end (hnames name hname)) hlast (by decide)
  have hend : skip? suiteEnd suiteEnd.toList = some [] := by
    decide
  simp only [CheckerModule.read?, String.toList_ofList, moduleText, Text.skip_append,
    Text.read_quoted_quote, hdeclared, hlisted, skip_empty_block, hend, Option.bind_eq_bind,
    Option.bind_some]
  rfl

/-- Writing a module that can be read back succeeds, and its text is read back as the module it was
written for. No other module with different content is written as the same text. -/
theorem CheckerModule.read_render (runtimeModule : String) {m : CheckerModule}
    (h : m.IsReadable) :
    ∃ text, m.render runtimeModule = .ok text ∧
      CheckerModule.read? text = some (m.content runtimeModule) ∧
      ∀ (other : CheckerModule) (otherRuntime : String), other.IsReadable →
        other.render otherRuntime = .ok text →
        other.content otherRuntime = m.content runtimeModule := by
  have hread : ∀ (other : CheckerModule) (otherRuntime : String), other.IsReadable →
      CheckerModule.read? (String.ofList (moduleText (other.content otherRuntime))) =
        some (other.content otherRuntime) := by
    intro other otherRuntime hother
    apply read_module_text hother.1
    simpa [CheckerModule.content] using hother.2
  refine ⟨_, render_module_text runtimeModule h, hread m runtimeModule h, ?_⟩
  intro other otherRuntime hother htext
  rw [render_module_text otherRuntime hother, Except.ok.injEq] at htext
  have hsame := hread other otherRuntime hother
  rw [htext, hread m runtimeModule h] at hsame
  exact (Option.some.inj hsame).symm

/-- A module whose names hold quotes, line breaks and backslashes, whose literal holds a closing
parenthesis, and whose declarations come twice. -/
def awkwardModule : CheckerModule :=
  let body : Validator := .iface [.ref "a\n\x22b"]
    [.member "\\" (.opt (.literal "'it\\'s)'")),
     .member "run" (.func (.tuple []) [.param "x" (.union [.iface [] [], .ref ""]) true])]
  ⟨"awkward.ts", [⟨"A$", body⟩, ⟨"A$", .array body⟩], [⟨"A$", body⟩, ⟨"_b", .ref "A$"⟩]⟩

/-- The module with awkward names and texts is read back. -/
theorem read_render_awkward : awkwardModule.IsReadable ∧
    ∃ text, awkwardModule.render "t\x22s" = .ok text ∧
      CheckerModule.read? text = some (awkwardModule.content "t\x22s") ∧
      ∀ (other : CheckerModule) (otherRuntime : String), other.IsReadable →
        other.render otherRuntime = .ok text →
        other.content otherRuntime = awkwardModule.content "t\x22s" := by
  have hliteral : IsLiteral "'it\\'s)'" := by
    refine Or.inl ⟨'\x27', "it\\'s)".toList, by decide, by decide, ?_, by decide⟩
    simp [Text.IsMarked]
  have hreadable : awkwardModule.IsReadable := by
    constructor
    · simp [awkwardModule, Declaration.IsReadable, IsName, Text.isNameChar,
        Validator.IsExpression, Validator.AreExpressions, Validator.AreMembers, hliteral]
    · simp [awkwardModule, IsName, Text.isNameChar]
  exact ⟨hreadable, CheckerModule.read_render "t\x22s" hreadable⟩

end TypeSuite
