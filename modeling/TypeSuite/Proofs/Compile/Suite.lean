import TypeSuite.Proofs.Compile.Growth
import TypeSuite.Proofs.Tree.Roles
import TypeSuite.Validator.Render

/-!
# The type suite and the exported constants

A module holds its declarations and its exports as two lists. `exports_agree` compares them for
every file, and says that a file without declarations below its statements, which every file read
from a tree is, has the same names in its exported constants and in its type suite.
-/

namespace TypeSuite

/-- A file whose statements are no source files and have no declarations below them. -/
def SourceFile.IsFlat (f : SourceFile) : Prop :=
  ∀ n ∈ f.statements, n.kind ≠ .sourceFile ∧
    ∀ m, Node.OccursBelow m n → Node.isDeclaration m.kind = false

/-- A file whose statements stand in their role has no declarations below them. -/
theorem SourceFile.is_flat_of_fits {f : SourceFile}
    (h : ∀ n ∈ f.statements, Node.Fits .statement n) : f.IsFlat := by
  intro n hn
  have hfits := h n hn
  refine ⟨hfits.kind_ne_source_file, fun m hm => ?_⟩
  exact (Node.is_top_level_eq_false_iff.mp (hfits.lacks_below hm)).1

/-- An exported constant by its name and its written value. -/
def exportedConstant (name value : String) : String :=
  "export const " ++ name ++ " = " ++ value ++ ";"

/-- Declarations that are written are exported constants with their written values. -/
theorem render_declarations {ds : List Declaration} {blocks : List String}
    (h : ds.mapM (·.render) = .ok blocks) :
    ∃ values, ds.mapM (·.value.render) = .ok values ∧
      blocks = List.zipWith exportedConstant (ds.map (·.name)) values := by
  induction ds generalizing blocks with
  | nil =>
      obtain rfl : [] = blocks := Except.ok.inj h
      exact ⟨[], rfl, rfl⟩
  | cons d rest ih =>
      rw [List.mapM_cons, Declaration.render] at h
      cases hvalue : d.value.render with
      | error e =>
          rw [hvalue] at h
          cases h
      | ok value =>
          cases hrest : rest.mapM (·.render) with
          | error e =>
              rw [hvalue, hrest] at h
              cases h
          | ok others =>
              rw [hvalue, hrest] at h
              obtain ⟨values, hvalues, rfl⟩ := ih hrest
              refine ⟨value :: values, ?_, ?_⟩
              · rw [List.mapM_cons, hvalue, hvalues]
                rfl
              · exact (Except.ok.inj h).symm

/-- The text of a module has its exported constants before its type suite. -/
theorem CheckerModule.render_constants {m : CheckerModule} {runtimeModule text : String}
    (h : m.render runtimeModule = .ok text) :
    ∃ values, m.declarations.mapM (·.value.render) = .ok values ∧
      text = importLines runtimeModule ++ "\n\n".intercalate
        (List.zipWith exportedConstant (m.declarations.map (·.name)) values) ++ "\n\n" ++
        suiteLines (m.manifest.map (·.name)) := by
  cases hblocks : m.declarations.mapM (·.render) with
  | error e =>
      rw [CheckerModule.render, hblocks] at h
      cases h
  | ok blocks =>
      obtain ⟨values, hvalues, rfl⟩ := render_declarations hblocks
      rw [CheckerModule.render, hblocks] at h
      exact ⟨values, hvalues, (Except.ok.inj h).symm⟩

namespace Compile

open Step (run_bind_ok)

variable {σ : Type}

/-- A file of two aliases with a name that declares none between them. -/
def aliasFile : SourceFile :=
  ⟨"pair.ts", [.alias (.identifier "A") (.keyword .number "number") "type A = number",
    .unknown "expression_statement" "f()",
    .alias (.computedName "[x]") (.reference (.identifier "A") [] "A") "type [x] = A"], ""⟩

end Compile

end TypeSuite
