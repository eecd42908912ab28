import TypeSuite.Proofs.Build.Stages
import TypeSuite.Proofs.Compile.Refusal

/-!
# Outcomes of a build

A source whose tree has no syntax error, lies on character boundaries and has its parts becomes a
text or is refused with a compilation error. `compile_source_outcome` follows the tree through all
stages: it is lowered to the statements that it stands for, these are compiled or the first refused
one decides the error, and what is compiled from them has a written form. Syntax that is not
recognised is left out among the statements and refused below them.
-/

namespace TypeSuite.Builder

open Compile (AreAccepted Refuses declarationsAlone exportNames)

/-- What a builder makes of a file: the text of its declarations behind the header if all statements
are accepted, or else the error of the first one that is refused. -/
inductive Makes (b : Builder) (f : SourceFile) : Except Failure String → Prop where
  | text {declarations : List Declaration} {text : String} :
      AreAccepted (b.settings Resolver.declared) f.statements →
      declarations = declarationsAlone (b.settings Resolver.declared) f.statements →
      CheckerModule.render ⟨f.fileName, declarations, declarations⟩ b.runtimeModule = .ok text →
      Makes b f (.ok (b.config.output.header ++ text))
  | refused {before after : List Node} {n : Node} {e : CompileError} :
      f.statements = before ++ n :: after →
      AreAccepted (b.settings Resolver.declared) before →
      Refuses (b.settings Resolver.declared)
        (exportNames (b.settings Resolver.declared) before) n e →
      Makes b f (.error (.compile e))

variable {b : Builder} {f : SourceFile}

/-- What becomes of a file that was read from a source: the text of its module behind the header,
or a failure. -/
def resultOf (b : Builder) (f : SourceFile) : Except Failure String :=
  ((b.compileFile Resolver.declared [] f).run []).1.map (b.config.output.header ++ ·)

/-- Building a source whose tree is lowered to a file gives what becomes of that file. -/
theorem result_of_lowered {reader : SourceReader} {source : ByteArray} {fileName : String}
    (herror : (reader source).head.hasError = false)
    (hlower : (reader source).lower source fileName = .ok f) (events : List Event) :
    ((b.compileSource reader source fileName).run events).1 = b.resultOf f := by
  have hcheck : (reader source).check fileName = .ok () := by
    rw [Tree.check, herror]
    rfl
  rw [result_compile_source, Build.result_parse, hcheck, hlower]
  rfl

/-- Files that compile to the same become the same. -/
theorem result_of_congr {g : SourceFile}
    (h : ((Compile.file (b.settings Resolver.declared) g).run (.start [])).1 =
      ((Compile.file (b.settings Resolver.declared) f).run (.start [])).1) :
    b.resultOf g = b.resultOf f := by
  rw [resultOf, resultOf, result_compile_file, result_compile_file, h]

/-- A file that does not compile becomes a compilation error. -/
theorem result_of_error {e : CompileError}
    (h : ((Compile.file (b.settings Resolver.declared) f).run (.start [])).1 = .error e) :
    b.resultOf f = .error (.compile e) := by
  rw [resultOf, b.result_of_not_compiled h]
  rfl

/-- A file whose statements fit their role becomes what the builder makes of it. -/
theorem makes_result_of (b : Builder) (hfits : ∀ n ∈ f.statements, Node.Fits .statement n) :
    b.Makes f (b.resultOf f) := by
  obtain ⟨haccepted, hfile⟩ | ⟨before, n, after, e, hsplit, haccepted, hrefuses, hfile⟩ :=
    Compile.file_outcome (show (b.settings Resolver.declared).resolver = _ from rfl)
      Resolver.faithful_nil hfits
  · obtain ⟨text, htext, hcompiled⟩ := b.result_of_compiled Resolver.declared [] hfits hfile
    have hresult : b.resultOf f = .ok (b.config.output.header ++ text) := by
      rw [resultOf, hcompiled]
      rfl
    rw [hresult]
    exact .text haccepted rfl htext
  · rw [result_of_error hfile]
    exact .refused hsplit haccepted hrefuses

/-- Of a file with a node below a statement that is not supported, no text is made. -/
theorem Makes.refused_of_mem {result : Except Failure String} (h : b.Makes f result) {n m : Node}
    (hn : n ∈ f.statements) (hm : m ∈ n.evaluatedBelow (b.settings Resolver.declared).wrapper)
    (hsupported : m.isSupported (b.settings Resolver.declared).wrapper = false) :
    ∃ e, result = .error (.compile e) := by
  cases h with
  | text haccepted => exact absurd (haccepted.supported n hn m hm) (by simp [hsupported])
  | refused => exact ⟨_, rfl⟩

/-- Building a source whose tree has no syntax error, lies on character boundaries and has its parts
gives a text or a compilation error.

In every position each tree in it has a meaning, and that is a node which it stands for; where
syntax is not recognised, the node is unknown and has its kind and text. The source is lowered to the
file that the tree stands for. Whatever is compiled from the file has a written form, with any
resolver. The result is what is made of the file: the text of its declarations, or the error of the
first statement that is refused. An unknown statement can be left out of the file. With an unknown
node that is compiled below a statement the source is refused, and if no node is refused before that
one, the error is that of an unsupported node of its kind and text. -/
theorem compile_source_outcome (b : Builder) (reader : SourceReader) (source fileName : String)
    (root : Tree) (hreader : reader source.toUTF8 = root) (herror : root.head.hasError = false)
    (hspans : ∀ t, Tree.Occurs t root → t.head.OnBoundaries source)
    (hparts : ∀ t, Tree.Occurs t root → t.HasParts) (events : List Event) :
    let settings := b.settings Resolver.declared
    let result := ((b.compileSource reader source.toUTF8 fileName).run events).1
    (∀ t, Tree.Occurs t root → ∃ text, t.head.Covers source.toUTF8 text ∧
      ∀ position, ∃ n, Lowering.meaning source.toUTF8 position t = .ok n ∧
        Stands source.toUTF8 position t n ∧
        (position.recognises text t = false → n = .unknown t.head.kind text)) ∧
    ∃ f, root.lower source.toUTF8 fileName = .ok f ∧ root.StandsFor source.toUTF8 fileName f ∧
      (∀ n ∈ f.statements, Node.Fits .statement n) ∧
      (∀ {σ : Type} (others : CompileSettings σ) (session : σ) (m : CheckerModule),
        ((Compile.file others f).run (.start session)).1 = .ok m →
        ∀ runtimeModule, ∃ text, m.render runtimeModule = .ok text) ∧
      result = b.resultOf f ∧ b.Makes f result ∧
      (∀ before form text after, f.statements = before ++ .unknown form text :: after →
        b.resultOf { f with statements := before ++ after } = result) ∧
      (∀ n ∈ f.statements, ∀ form text, .unknown form text ∈ n.evaluatedBelow settings.wrapper →
        ∃ e, result = .error (.compile e)) ∧
      ∀ before n after, f.statements = before ++ n :: after → AreAccepted settings before →
        ∀ front form text back,
          n.evaluatedBelow settings.wrapper = front ++ .unknown form text :: back →
          (∀ m ∈ front, m.isSupported settings.wrapper = true) →
          result = .error (.compile (.unsupportedNode form text)) := by
  intro settings result
  have hcomplete := Tree.is_complete_of_spans hspans hparts
  refine ⟨fun t ht => ?_, ?_⟩
  · obtain ⟨text, htext⟩ := (hcomplete t ht).1
    refine ⟨text, htext, fun position => ?_⟩
    have hmeans := Lowering.meaning_stands source.toUTF8 t position
    obtain ⟨n, hn⟩ := hmeans.is_ok (hcomplete.occurs ht)
    have hstands := hmeans.holds hn
    exact ⟨n, hn, hstands, hstands.of_unrecognised htext⟩
  · have hlowers := root.lower_stands source.toUTF8 fileName
    obtain ⟨f, hlower⟩ := hlowers.is_ok hcomplete
    have hstands := hlowers.holds hlower
    have hfits := hstands.fits
    subst hreader
    have hresult : result = b.resultOf f := result_of_lowered herror hlower events
    have hmakes : b.Makes f result := hresult ▸ b.makes_result_of hfits
    refine ⟨f, hlower, hstands, hfits, fun others session m hm => ?_, hresult, hmakes, ?_, ?_, ?_⟩
    · exact Validator.render_module_ok (Compile.yields_file hfits _ m _ (Prod.ext hm rfl))
    · intro before form text after hsplit
      rw [hresult]
      exact result_of_congr (Compile.file_without_unknown rfl Resolver.faithful_nil hfits hsplit)
    · intro n hn form text hm
      exact hmakes.refused_of_mem hn hm rfl
    · intro before n after hsplit haccepted front form text back hevaluated hfront
      have hrefuses : Refuses settings (exportNames settings before) n
          (.unsupportedNode form text) := .unsupported hevaluated hfront rfl
      rw [hresult]
      exact result_of_error
        (Compile.file_of_refuses rfl Resolver.faithful_nil hfits hsplit haccepted hrefuses)

/-- The tree of a call and an alias of an array behind it. -/
def skippedTree : Tree :=
  .part "program" 0 18 none
    [.part "expression_statement" 0 4 none [],
     .part "type_alias_declaration" 5 18 none
      [.part "type_identifier" 10 11 (some "name") [],
       .part "array_type" 14 18 (some "value") [.part "type_identifier" 14 16 none []]]]

/-- An intersection. -/
def refusedType : Tree :=
  .part "intersection_type" 9 14 (some "value")
    [.part "type_identifier" 9 10 none [], .part "type_identifier" 13 14 none []]

/-- The tree of an alias of an intersection. -/
def refusedTree : Tree :=
  .part "program" 0 14 none
    [.part "type_alias_declaration" 0 14 none
      [.part "type_identifier" 5 6 (some "name") [], refusedType]]

/-- The module of an alias of an array. -/
def arrayModule : String :=
  "/**\n * This module was automatically generated by `ts-interface-builder`\n */\n" ++
    "import * as t from \"ts-interface-checker\";\n" ++
    "// tslint:disable:object-literal-key-quotes\n\n" ++
    "export const A = t.array(\"é\");\n\n" ++
    "const exportedTypeSuite: t.ITypeSuite = \x7b\n  A,\n\x7d;\n" ++
    "export default exportedTypeSuite;\n"

/-- What a builder with the defaults makes of a source with a certain tree. -/
def built? (root : Tree) (source : String) : Except Failure String :=
  (((ofConfig {}).compileSource (fun _ => root) source.toUTF8 "a.ts").run []).1

/-- A call among the statements is not recognised and left out, and the statements are accepted. An
intersection is not recognised as a type, and a source is refused for it. -/
theorem compile_source_outcome_unrecognised :
    (∀ t, Tree.Occurs t skippedTree → t.head.OnBoundaries "f(); type A = é[]") ∧
    (∀ t, Tree.Occurs t skippedTree → t.HasParts) ∧
    (∃ f, skippedTree.lower "f(); type A = é[]".toUTF8 "a.ts" = .ok f ∧
      skippedTree.StandsFor "f(); type A = é[]".toUTF8 "a.ts" f ∧
      AreAccepted ((ofConfig {}).settings Resolver.declared) f.statements) ∧
    built? skippedTree "f(); type A = é[]" = .ok arrayModule ∧
    (∀ t, Tree.Occurs t refusedTree → t.head.OnBoundaries "type A = B & C") ∧
    (∀ t, Tree.Occurs t refusedTree → t.HasParts) ∧
    built? refusedTree "type A = B & C" =
      .error (.compile (.unsupportedNode "intersection_type" "B & C")) := by
  have hspans : ∀ t, Tree.Occurs t skippedTree → t.head.OnBoundaries "f(); type A = é[]" := by
    simp [skippedTree, Tree.part, Tree.forall_occurs_iff, Head.OnBoundaries, Tree.head]
    decide
  have hparts : ∀ t, Tree.Occurs t skippedTree → t.HasParts := by
    simp [skippedTree, Tree.part, Tree.forall_occurs_iff]
    refine ⟨?_, ?_, ?_, ?_, ?_, ?_⟩ <;>
      constructor <;> simp [Tree.head, Tree.children, Head.isItem]
  have hrefusedSpans : ∀ t, Tree.Occurs t refusedTree → t.head.OnBoundaries "type A = B & C" := by
    simp [refusedTree, refusedType, Tree.part, Tree.forall_occurs_iff, Head.OnBoundaries, Tree.head]
    decide
  have hrefusedParts : ∀ t, Tree.Occurs t refusedTree → t.HasParts := by
    simp [refusedTree, refusedType, Tree.part, Tree.forall_occurs_iff]
    refine ⟨?_, ?_, ?_, ?_, ?_, ?_⟩ <;>
      constructor <;> simp [Tree.head, Tree.children, Head.isItem]
  have hbuilt : built? skippedTree "f(); type A = é[]" = .ok arrayModule := by decide +kernel
  refine ⟨hspans, hparts, ?_, hbuilt, hrefusedSpans, hrefusedParts, ?_⟩
  · obtain ⟨-, f, hlower, hstands, -, -, -, hmakes, -⟩ := compile_source_outcome (ofConfig {})
      (fun _ => skippedTree) "f(); type A = é[]" "a.ts" skippedTree rfl rfl hspans hparts []
    refine ⟨f, hlower, hstands, ?_⟩
    generalize hresult : (((ofConfig {}).compileSource _ _ _).run []).1 = result at hmakes
    cases hmakes with
    | text haccepted => exact haccepted
    | refused => cases hresult.symm.trans hbuilt
  · obtain ⟨-, f, hlower, hstands, -, -, -, -, -, -, hfirst⟩ := compile_source_outcome (ofConfig {})
      (fun _ => refusedTree) "type A = B & C" "a.ts" refusedTree rfl rfl hrefusedSpans hrefusedParts
      []
    have hitems : refusedTree.items = refusedTree.children := rfl
    obtain ⟨n, rest, hn, hrest, hstatements⟩ :=
      List.forall₂_cons_left_iff.mp (hitems ▸ hstands.statements)
    cases hn with
    | unknown _ hother => cases hother
    | exported hkind | ambient hkind | interface hkind => exact absurd hkind (by decide)
    | typeAlias _ _ _ hvalue htype =>
        obtain rfl := Option.some.inj hvalue
        have htext : Text.slice? "type A = B & C".toUTF8 9 14 = some "B & C" := by decide +kernel
        have hcovers : refusedType.head.Covers "type A = B & C".toUTF8 "B & C" := htext
        obtain rfl := htype.of_unrecognised hcovers rfl
        refine hfirst [] _ rest hstatements ⟨List.forall_mem_nil _, List.nodup_nil⟩ [] _ _ [] ?_
          (List.forall_mem_nil _)
        simp [Node.evaluatedBelow, Node.evaluatedFields, Node.evaluated_eq]
        rfl

end TypeSuite.Builder
