import TypeSuite.Build.Basic
import TypeSuite.Proofs.Compile.Sorts
import TypeSuite.Proofs.Tree.Roles

/-!
# Stages of a build

What becomes of a source does not depend on what was reported before. It is told here stage by
stage: a source is read and checked, its tree lowered, the file compiled and its module written.
-/

namespace TypeSuite

open Step (run_bind_of_error run_bind_of_ok)

/-- A tree on character boundaries that has its parts everywhere is complete. -/
theorem Tree.is_complete_of_spans {source : String} {root : Tree}
    (hspans : ∀ t, Tree.Occurs t root → t.head.OnBoundaries source)
    (hparts : ∀ t, Tree.Occurs t root → t.HasParts) : root.IsComplete source.toUTF8 :=
  fun t ht => ⟨(hspans t ht).is_readable, hparts t ht⟩

namespace Build

variable {α β : Type}

/-- The result of two steps is that of the second one, or else the failure of the first. -/
theorem result_bind (x : Build α) (f : α → Build β) (events : List Event) :
    ((x >>= f).run events).1 = (x.run events).1.bind fun a =>
      ((f a).run (x.run events).2).1 := by
  cases hrun : x.run events with
  | mk outcome rest =>
      cases outcome with
      | ok a => rw [run_bind_of_ok hrun]; rfl
      | error failure => rw [run_bind_of_error hrun]; rfl

/-- The result of a step that is taken from a finished outcome. -/
theorem result_lift (x : Except Failure α) (events : List Event) :
    ((liftM x : Build α).run events) = (x, events) := by
  cases x <;> rfl

/-- The result of reading a source: a refusal, a fault of the lowering, or a file. -/
theorem result_parse (reader : SourceReader) (source : ByteArray) (fileName : String)
    (events : List Event) :
    ((parse reader source fileName).run events).1 =
      (((reader source).check fileName).mapError Failure.refused).bind fun _ =>
        ((reader source).lower source fileName).mapError Failure.lowering := by
  unfold parse
  simp only [result_bind, result_lift]
  cases (reader source).check fileName with
  | error r => rfl
  | ok u => cases (reader source).lower source fileName <;> rfl

end Build

namespace Builder

/-- The result of compiling a file: a compilation error, or what becomes of its module. -/
theorem result_compile_file (b : Builder) {σ : Type} (resolver : Resolver σ) (session : σ)
    (f : SourceFile) (events : List Event) :
    ((b.compileFile resolver session f).run events).1 =
      (((Compile.file (b.settings resolver) f).run (.start session)).1.mapError
        Failure.compile).bind fun m => (m.render b.runtimeModule).mapError Failure.render := by
  unfold compileFile
  cases (Compile.file (b.settings resolver) f).run (.start session) with
  | mk outcome progress =>
      cases outcome with
      | error e => rfl
      | ok m => cases m.render b.runtimeModule <;> rfl

/-- The result of compiling a source: the text of its file's module behind the header. -/
theorem result_compile_source (b : Builder) (reader : SourceReader) (source : ByteArray)
    (fileName : String) (events : List Event) :
    ((b.compileSource reader source fileName).run events).1 =
      ((Build.parse reader source fileName).run events).1.bind fun f =>
        ((b.compileFile Resolver.declared [] f).run []).1.map (b.config.output.header ++ ·) := by
  unfold compileSource
  simp only [Build.result_bind, result_compile_file]
  rfl

/-- What a file compiles to has a written form if its statements stand in their role, and that is
the result. -/
theorem result_of_compiled (b : Builder) {σ : Type} (resolver : Resolver σ) (session : σ)
    {f : SourceFile} (h : ∀ n ∈ f.statements, Node.Fits .statement n) {m : CheckerModule}
    (hfile : ((Compile.file (b.settings resolver) f).run (.start session)).1 = .ok m) :
    ∃ text, m.render b.runtimeModule = .ok text ∧
      ∀ events, ((b.compileFile resolver session f).run events).1 = .ok text := by
  have hvalues := Compile.yields_file h _ m _ (Prod.ext hfile rfl)
  obtain ⟨text, htext⟩ := Validator.render_module_ok hvalues b.runtimeModule
  refine ⟨text, htext, fun events => ?_⟩
  rw [result_compile_file, hfile]
  simp only [Except.mapError, Except.bind, htext]

/-- The error of a file that does not compile is the result. -/
theorem result_of_not_compiled (b : Builder) {σ : Type} {resolver : Resolver σ} {session : σ}
    {f : SourceFile} {e : CompileError}
    (hfile : ((Compile.file (b.settings resolver) f).run (.start session)).1 = .error e)
    (events : List Event) :
    ((b.compileFile resolver session f).run events).1 = .error (.compile e) := by
  rw [result_compile_file, hfile]
  rfl

/-- A file whose statements stand in their role becomes a text or is refused with a compilation
error. -/
theorem compile_file_outcome (b : Builder) {σ : Type} (resolver : Resolver σ) (session : σ)
    {f : SourceFile} (h : ∀ n ∈ f.statements, Node.Fits .statement n) (events : List Event) :
    (∃ text, ((b.compileFile resolver session f).run events).1 = .ok text) ∨
      ∃ e, ((b.compileFile resolver session f).run events).1 = .error (.compile e) := by
  cases hfile : ((Compile.file (b.settings resolver) f).run (.start session)).1 with
  | error e => exact .inr ⟨e, b.result_of_not_compiled hfile events⟩
  | ok m =>
      obtain ⟨text, -, hresult⟩ := b.result_of_compiled resolver session h hfile
      exact .inl ⟨text, hresult events⟩

/-- A source that does not become a module has a failure with a report, unless its tree has no
syntax error and no meaning. -/
theorem unreported_compile_source {b : Builder} {reader : SourceReader} {source : ByteArray}
    {fileName : String} {events : List Event} {failure : Failure}
    (h : ((b.compileSource reader source fileName).run events).1 = .error failure)
    (hreport : failure.report? = none) :
    (reader source).head.hasError = false ∧
      ∃ fault, (reader source).lower source fileName = .error fault ∧
        failure = .lowering fault := by
  rw [result_compile_source, Build.result_parse] at h
  generalize reader source = root at h ⊢
  cases herror : root.head.hasError with
  | true =>
      simp only [Tree.check, herror, if_pos] at h
      obtain rfl := Except.error.inj h
      cases hreport
  | false =>
      simp only [Tree.check, herror, if_neg Bool.false_ne_true] at h
      cases hlower : root.lower source fileName with
      | error fault =>
          rw [hlower] at h
          exact ⟨rfl, fault, rfl, (Except.error.inj h).symm⟩
      | ok f =>
          -- What is compiled from statements in their role has a written form.
          have hfits := (root.lower_meets source fileName).holds hlower
          obtain ⟨text, hfile⟩ | ⟨e, hfile⟩ :=
            b.compile_file_outcome Resolver.declared [] hfits []
          · rw [hlower] at h
            simp only [Except.mapError, Except.bind, hfile] at h
            cases h
          · rw [hlower] at h
            simp only [Except.mapError, Except.bind, hfile] at h
            obtain rfl := Except.error.inj h
            cases hreport

end Builder

/-- A reader whose trees without syntax errors lie on the characters of a text and have their
parts. -/
def SourceReader.IsSound (reader : SourceReader) : Prop :=
  ∀ text : String, (reader text.toUTF8).head.hasError = false →
    (∀ t, Tree.Occurs t (reader text.toUTF8) → t.head.OnBoundaries text) ∧
      ∀ t, Tree.Occurs t (reader text.toUTF8) → t.HasParts

/-- A tree that a sound reader finds in a text has a meaning, unless a syntax error lies in it. -/
theorem SourceReader.IsSound.lower {reader : SourceReader} (h : reader.IsSound) {text : String}
    (herror : (reader text.toUTF8).head.hasError = false) (fileName : String) :
    ∃ f, (reader text.toUTF8).lower text.toUTF8 fileName = .ok f := by
  obtain ⟨hspans, hparts⟩ := h text herror
  exact ((reader text.toUTF8).lower_meets text.toUTF8 fileName).is_ok
    (Tree.is_complete_of_spans hspans hparts)

/-- A reader that knows a single text. To it, any other source is a syntax error. -/
def SourceReader.only (text : String) (root : Tree) : SourceReader := fun source =>
  -- Named, since all of Mathlib brings a second instance.
  haveI := ByteArray.instDecidableEq source text.toUTF8
  if source = text.toUTF8 then root else .ofSyntaxError source.size

/-- A reader that knows a single text is sound if its tree is as it should be. -/
theorem SourceReader.only_is_sound {text : String} {root : Tree}
    (hspans : ∀ t, Tree.Occurs t root → t.head.OnBoundaries text)
    (hparts : ∀ t, Tree.Occurs t root → t.HasParts) : (only text root).IsSound := by
  intro other herror
  unfold only at herror ⊢
  split at herror
  case isFalse => cases herror
  case isTrue hsame =>
    obtain rfl := String.toByteArray_inj.mp hsame
    rw [if_pos rfl]
    exact ⟨hspans, hparts⟩

/-- The tree of an alias of an array. -/
def arrayTree : Tree :=
  .part "program" 0 13 none
    [.part "type_alias_declaration" 0 13 none
      [.part "type_identifier" 5 6 (some "name") [],
       .part "array_type" 9 13 (some "value") [.part "type_identifier" 9 11 none []]]]

/-- A reader that knows the alias of an array. -/
def arrayReader : SourceReader :=
  .only "type A = é[]" arrayTree

/-- The reader that knows the alias of an array is sound. -/
theorem array_reader_is_sound : arrayReader.IsSound := by
  apply SourceReader.only_is_sound
  · simp [arrayTree, Tree.part, Tree.forall_occurs_iff, Head.OnBoundaries, Tree.head]
    decide
  · simp [arrayTree, Tree.part, Tree.forall_occurs_iff]
    refine ⟨?_, ?_, ?_, ?_, ?_⟩ <;>
      constructor <;> simp [Tree.head, Tree.children, Head.isItem]

end TypeSuite
