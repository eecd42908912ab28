import Mathlib.Logic.Relation
import TypeSuite.Proofs.Node.Equality
import TypeSuite.Proofs.Tree.Roles

/-!
# Comments and wrappers

A tree may lose any of its comments, and a statement any export or ambient declaration around it,
without a change to what it is lowered to. `Simplifies` is one such step on the tree of a file, and
`lower_simplified` is about any number of them.

A reading depends on the children of a tree only as far as `Child.SameView` tells them apart, and
comments are in no view. The removal of a wrapper does change readings, but not those as a
statement, and it takes place where nothing else is read.
-/

namespace TypeSuite

/-- A comment that fills no field. -/
structure Head.IsFreeComment (head : Head) : Prop where
  named : head.named = true
  kind : head.kind = "comment"
  field : head.field = none

namespace Child

/-- Two lists of children look the same to their parent. -/
structure SameView (first second : List Child) : Prop where
  items : items first = items second
  inField : ∀ field, inField? field first = inField? field second
  hasToken : ∀ token, hasToken token first = hasToken token second

variable {first second : List Child} {head : Head} {reading : Reading}

/-- A comment without a field is in no view. -/
theorem view_of_comment (h : head.IsFreeComment) :
    SameView (first ++ ⟨head, reading⟩ :: second) (first ++ second) where
  items := by simp [items, Head.isItem, h.kind]
  inField field := by simp [inField?, List.find?_append, h.field]
  hasToken token := by simp [hasToken, h.named]

/-- A child with a meaning is kept among those around it. -/
theorem items_split (h : head.isItem = true) :
    items (first ++ ⟨head, reading⟩ :: second) =
      items first ++ ⟨head, reading⟩ :: items second := by
  simp [items, h]

/-- No child is kept when none has a meaning. -/
theorem items_eq_nil (h : ∀ d ∈ first, d.head.isItem = false) : items first = [] := by
  simpa [items, List.filter_eq_nil_iff] using h

/-- The first child that fills a field is found. -/
theorem in_field_split {field : String} (hfirst : ∀ d ∈ first, d.head.field ≠ some field)
    (hhead : head.field = some field) :
    inField? field (first ++ ⟨head, reading⟩ :: second) = some ⟨head, reading⟩ := by
  have hnone : first.find? (·.head.field == some field) = none := by
    simpa [List.find?_eq_none] using hfirst
  simp [inField?, List.find?_append, hnone, hhead]

end Child

namespace Tree

/-- A tree with another field of its parent to fill. -/
def inField (field : Option String) : Tree → Tree
  | .node head children => .node { head with field } children

/-- A tree loses a comment at any depth. -/
inductive DropsComment : Tree → Tree → Prop where
  | here {head : Head} {before after : List Tree} {comment : Tree} :
      comment.head.IsFreeComment →
      DropsComment (.node head (before ++ comment :: after)) (.node head (before ++ after))
  | inside {head : Head} {before after : List Tree} {c c' : Tree} :
      DropsComment c c' →
      DropsComment (.node head (before ++ c :: after)) (.node head (before ++ c' :: after))

/-- A child that its parent stands for as a statement: the declaration of an export, or all that an
ambient declaration has inside. -/
inductive Wraps (head : Head) (before : List Tree) (c : Tree) (after : List Tree) : Prop where
  | exported : head.kind = "export_statement" →
      (∀ t ∈ before, t.head.field ≠ some "declaration") → c.head.field = some "declaration" →
      Wraps head before c after
  | ambient : head.kind = "ambient_declaration" → c.head.isItem = true →
      (∀ t ∈ before ++ after, t.head.isItem = false) → Wraps head before c after

/-- A statement loses a wrapper at any depth of wrappers. What was inside takes its place. -/
inductive Unwraps : Tree → Tree → Prop where
  | here {head : Head} {before after : List Tree} {c : Tree} :
      Wraps head before c after → c.head.isItem = true →
      Unwraps (.node head (before ++ c :: after)) (c.inField head.field)
  | inside {head : Head} {before after : List Tree} {c c' : Tree} :
      Wraps head before c after → Unwraps c c' →
      Unwraps (.node head (before ++ c :: after)) (.node head (before ++ c' :: after))

/-- The tree of a file loses a comment anywhere, or one of its statements loses a wrapper. -/
inductive Simplifies : Tree → Tree → Prop where
  | comment {root root' : Tree} : DropsComment root root' → Simplifies root root'
  | statement {head : Head} {before after : List Tree} {c c' : Tree} :
      c.head.isItem = true → Unwraps c c' →
      Simplifies (.node head (before ++ c :: after)) (.node head (before ++ c' :: after))

end Tree

namespace Lowering

open Child (SameView)
open TypeSuite.Tree (DropsComment Wraps Unwraps Simplifies)

variable {head : Head} {before after : List Tree} {c c' t t' : Tree}

/-- The children of a tree are read from left to right. -/
theorem read_all_append (source : ByteArray) (before after : List Tree) :
    readAll source (before ++ after) = readAll source before ++ readAll source after := by
  simp only [read_all_eq_map, List.map_append]

/-- A child is read among those around it. -/
theorem read_all_split (source : ByteArray) (before : List Tree) (c : Tree) (after : List Tree) :
    readAll source (before ++ c :: after) =
      readAll source before ++ ⟨c.head, read source c⟩ :: readAll source after := by
  rw [read_all_append, readAll]

/-- What holds of the roots of trees holds of the roots of their readings. -/
theorem forall_read_all (source : ByteArray) (holds : Head → Prop) {ts : List Tree}
    (h : ∀ t ∈ ts, holds t.head) : ∀ d ∈ readAll source ts, holds d.head := by
  intro d hd
  rw [read_all_eq_map] at hd
  obtain ⟨t, ht, rfl⟩ := List.mem_map.mp hd
  exact h t ht

/-- A reading depends on the view of the children only. -/
theorem reading_of_view (source : ByteArray) {first second : List Child}
    (h : SameView first second) :
    readingOf source head first = readingOf source head second := by
  simp only [readingOf, statementOf, interfaceOf, body?, aliasOf, baseOf, memberOf, parameterOf,
    annotatedOf, typeOf, argumentsIn, annotatedIn, parametersIn, firstType, unionOperands, h.items,
    h.inField, h.hasToken]

/-! ## Comments -/

/-- A tree that loses a comment keeps its root and the view of its children. -/
theorem view_of_drops_comment (source : ByteArray) (h : DropsComment t t') :
    t'.head = t.head ∧
      SameView (readAll source t.children) (readAll source t'.children) := by
  induction h with
  | @here head before after comment hcomment =>
      refine ⟨rfl, ?_⟩
      show SameView (readAll source (before ++ comment :: after))
        (readAll source (before ++ after))
      rw [read_all_split, read_all_append]
      exact Child.view_of_comment hcomment
  | @inside head before after c c' _ ih =>
      obtain ⟨hhead, hview⟩ := ih
      refine ⟨rfl, ?_⟩
      -- The child has the reading it had, so the parent sees the children that it saw.
      have hread : read source c' = read source c := by
        cases c
        cases c'
        cases hhead
        exact (reading_of_view source hview).symm
      show SameView (readAll source (before ++ c :: after)) (readAll source (before ++ c' :: after))
      rw [read_all_split, read_all_split, hhead, hread]
      exact ⟨rfl, fun _ => rfl, fun _ => rfl⟩

/-! ## Wrappers -/

/-- The field that a tree fills is for its parent. -/
theorem read_in_field (source : ByteArray) (field : Option String) :
    read source (c.inField field) = read source c := by
  cases c
  rfl

/-- As a statement, a wrapper is read as what it wraps. -/
theorem statement_of_wraps (source : ByteArray) (h : Wraps head before c after) :
    (read source (.node head (before ++ c :: after))).statement =
      (read source c).statement := by
  show statementOf source head (readAll source (before ++ c :: after)) = _
  rw [read_all_split]
  cases h with
  | exported hkind hbefore hc =>
      have hskipped := forall_read_all source (·.field ≠ some "declaration") hbefore
      simp only [statementOf, hkind, Child.in_field_split hskipped hc]
  | ambient hkind hitem hothers =>
      rw [List.forall_mem_append] at hothers
      have hbefore := forall_read_all source (·.isItem = false) hothers.1
      have hafter := forall_read_all source (·.isItem = false) hothers.2
      have honly : Child.items
          (readAll source before ++ ⟨c.head, read source c⟩ :: readAll source after) =
            [⟨c.head, read source c⟩] := by
        rw [Child.items_split hitem, Child.items_eq_nil hbefore, Child.items_eq_nil hafter]
        rfl
      simp only [statementOf, hkind, honly]

/-- A statement that loses a wrapper keeps its meaning as a statement, fills the same field and
remains one of the children with a meaning. -/
theorem statement_of_unwraps (source : ByteArray) (h : Unwraps c c') :
    (read source c').statement = (read source c).statement ∧ c'.head.field = c.head.field ∧
      (c.head.isItem = true → c'.head.isItem = true) := by
  induction h with
  | @here head before after c hwraps hitem =>
      refine ⟨?_, ?_, fun _ => ?_⟩
      · rw [read_in_field, statement_of_wraps source hwraps]
      · cases c
        rfl
      · cases c
        exact hitem
  | @inside head before after c c' hwraps _ ih =>
      obtain ⟨hstatement, hfield, hitem⟩ := ih
      refine ⟨?_, rfl, fun h => h⟩
      have hwraps' : Wraps head before c' after := by
        cases hwraps with
        | exported hkind hbefore hc => exact .exported hkind hbefore (hfield.trans hc)
        | ambient hkind hc hothers => exact .ambient hkind (hitem hc) hothers
      rw [statement_of_wraps source hwraps, statement_of_wraps source hwraps', hstatement]

/-! ## Files -/

/-- The statements of a file whose tree has the given children. -/
def statementsOf (source : ByteArray) (children : List Tree) : Lowered (List Node) :=
  (Child.items (readAll source children)).mapM (·.reading.statement)

/-- A file is made of its name, its statements and its text. -/
theorem lower_eq (source : ByteArray) (fileName : String) (root : Tree) :
    root.lower source fileName = (do
      let statements ← statementsOf source root.children
      return ⟨fileName, statements, ← textOf source root.head⟩) :=
  rfl

/-- A statement that loses a wrapper is the same among the statements of its file. -/
theorem statements_of_unwraps (source : ByteArray) (before after : List Tree)
    (hitem : c.head.isItem = true) (h : Unwraps c c') :
    statementsOf source (before ++ c' :: after) = statementsOf source (before ++ c :: after) := by
  obtain ⟨hstatement, -, hitem'⟩ := statement_of_unwraps source h
  unfold statementsOf
  rw [read_all_split, read_all_split, Child.items_split hitem, Child.items_split (hitem' hitem)]
  simp only [List.mapM_append, List.mapM_cons, hstatement]

/-- One step of simplification does not change what the tree of a file is lowered to. -/
theorem lower_of_simplifies (source : ByteArray) (fileName : String) {root root' : Tree}
    (h : Simplifies root root') :
    root'.lower source fileName = root.lower source fileName := by
  rw [lower_eq, lower_eq]
  cases h with
  | comment hcomment =>
      obtain ⟨hhead, hview⟩ := view_of_drops_comment source hcomment
      rw [statementsOf, statementsOf, hhead, hview.items]
  | @statement head before after c c' hitem hunwraps =>
      simp only [Tree.children, Tree.head]
      rw [statements_of_unwraps source before after hitem hunwraps]

end Lowering

namespace Tree

open Lowering

/-- Whatever comments and wrappers the tree of a file loses, for every source it is lowered to the
same file, or with the same fault. -/
theorem lower_simplified {root root' : Tree} (h : Relation.ReflTransGen Simplifies root root')
    (source : ByteArray) (fileName : String) :
    root'.lower source fileName = root.lower source fileName := by
  induction h with
  | refl => rfl
  | tail _ hstep ih => rw [lower_of_simplifies source fileName hstep, ih]

/-- The tree of an alias of a bracketed type with the given trees behind the opening bracket. -/
def bracketAlias (inside : List Tree) : Tree :=
  .part "type_alias_declaration" 15 35 none
    [.token "type" 15, .part "type_identifier" 20 21 (some "name") [], .token "=" 22,
     .part "parenthesized_type" 24 35 (some "value")
      (.token "(" 24 :: inside ++ [.part "type_identifier" 33 34 none [], .token ")" 34])]

/-- The tree of an ambient declaration around a statement. -/
def ambientTree (field : Option String) (statement : Tree) : Tree :=
  .part "ambient_declaration" 7 35 field [.token "declare" 7, statement]

/-- The tree of an export around a statement. -/
def exportTree (statement : Tree) : Tree :=
  .part "export_statement" 0 35 none [.token "export" 0, statement]

/-- The tree of a file with one statement. -/
def programTree (statement : Tree) : Tree :=
  .part "program" 0 35 none [statement]

/-- The tree of an exported alias with a comment. -/
def exportedAlias : Tree :=
  programTree (exportTree (ambientTree (some "declaration")
    (bracketAlias [.part "comment" 25 32 none []])))

/-- The file of an alias of a bracketed type, which has a comment in it and wrappers around it. -/
def aliasFile : SourceFile :=
  ⟨"a.ts", [.alias (.identifier "A") (.parenthesized (.reference (.identifier "B") [] "B")
    "(/* a */ B)") "type A = (/* a */ B)"], "export declare type A = (/* a */ B)"⟩

/-- An alias loses a comment, an export and the ambient declaration in it. -/
theorem lower_simplified_alias :
    Relation.ReflTransGen Simplifies exportedAlias (programTree (bracketAlias [])) ∧
      exportedAlias.lower aliasFile.text.toUTF8 "a.ts" = .ok aliasFile := by
  have hcomment : DropsComment (bracketAlias [.part "comment" 25 32 none []])
      (bracketAlias []) :=
    @DropsComment.inside _ [_, _, _] [] _ _ (@DropsComment.here _ [_] [_, _] _ ⟨rfl, rfl, rfl⟩)
  have hdropped : Simplifies exportedAlias
      (programTree (exportTree (ambientTree (some "declaration") (bracketAlias [])))) :=
    .comment (@DropsComment.inside _ [] [] _ _ (@DropsComment.inside _ [_] [] _ _
      (@DropsComment.inside _ [_] [] _ _ hcomment)))
  have hexport : Simplifies
      (programTree (exportTree (ambientTree (some "declaration") (bracketAlias []))))
      (programTree (ambientTree none (bracketAlias []))) :=
    @Simplifies.statement _ [] [] _ _ rfl
      (@Unwraps.here _ [_] [] _ (.exported rfl (by simp [token, head]) rfl) rfl)
  have hambient : Simplifies (programTree (ambientTree none (bracketAlias [])))
      (programTree (bracketAlias [])) :=
    @Simplifies.statement _ [] [] _ _ rfl
      (@Unwraps.here _ [_] [] _ (.ambient rfl rfl (by simp [token, head, Head.isItem])) rfl)
  have hsteps := ((Relation.ReflTransGen.single hdropped).tail hexport).tail hambient
  have hbare : (programTree (bracketAlias [])).lower aliasFile.text.toUTF8 "a.ts" =
      .ok aliasFile := SourceFile.eq_ok_of_same (by decide +kernel)
  exact ⟨hsteps, (lower_simplified hsteps _ _).symm.trans hbare⟩

end Tree

end TypeSuite
