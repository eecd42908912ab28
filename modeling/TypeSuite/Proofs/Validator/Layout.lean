import TypeSuite.Proofs.Text.Indentation
import TypeSuite.Validator.Render

/-!
# The layout of a written expression

`layout depth` writes an expression that starts on a line of the given depth, without indenting a
text again once it is written. `render_layout` says that it agrees with `render` at depth zero, and
`indent_layout` that indenting its text moves it one level in. Both hold of the expressions that
have a written form, for literals on one line.
-/

namespace TypeSuite.Validator

open Text (indent margin quote)

mutual
/-- An expression with a written form: it is made of builder calls, the members of its interfaces
are member values, and its literals satisfy a condition. -/
def IsExpression (literal : String → Prop) : Validator → Prop
  | .ref _ => True
  | .opt inner => IsExpression literal inner
  | .param _ type _ => IsExpression literal type
  | .func result params => IsExpression literal result ∧ AreExpressions literal params
  | .iface bases members => AreExpressions literal bases ∧ AreMembers literal members
  | .array element => IsExpression literal element
  | .tuple elements => AreExpressions literal elements
  | .union members => AreExpressions literal members
  | .literal text => literal text
  | .member .. | .declaration .. | .module .. | .plain _ => False

/-- A list of expressions with a written form. -/
def AreExpressions (literal : String → Prop) : List Validator → Prop
  | [] => True
  | e :: rest => IsExpression literal e ∧ AreExpressions literal rest

/-- A list of member values with a written form. -/
def AreMembers (literal : String → Prop) : List Validator → Prop
  | [] => True
  | .member _ value :: rest => IsExpression literal value ∧ AreMembers literal rest
  | _ :: _ => False
end

mutual
/-- A weaker condition on literals admits no fewer expressions. -/
theorem IsExpression.mono {weak strong : String → Prop} (himp : ∀ text, strong text → weak text)
    {e : Validator} (h : IsExpression strong e) : IsExpression weak e := by
  cases e with
  | ref => trivial
  | opt inner => exact IsExpression.mono himp (e := inner) h
  | param name type optional => exact IsExpression.mono himp (e := type) h
  | func result params =>
      exact ⟨IsExpression.mono himp h.1, AreExpressions.mono himp h.2⟩
  | iface bases members => exact ⟨AreExpressions.mono himp h.1, AreMembers.mono himp h.2⟩
  | array element => exact IsExpression.mono himp (e := element) h
  | tuple elements =>
      have helements : AreExpressions strong elements := h
      exact AreExpressions.mono himp helements
  | union members =>
      have hmembers : AreExpressions strong members := h
      exact AreExpressions.mono himp hmembers
  | literal text => exact himp text h
  | member | declaration | module | plain => exact h.elim

/-- A weaker condition on literals admits no fewer lists of expressions. -/
theorem AreExpressions.mono {weak strong : String → Prop}
    (himp : ∀ text, strong text → weak text) {es : List Validator}
    (h : AreExpressions strong es) : AreExpressions weak es := by
  cases es with
  | nil => trivial
  | cons e rest => exact ⟨IsExpression.mono himp h.1, AreExpressions.mono himp h.2⟩

/-- A weaker condition on literals admits no fewer lists of members. -/
theorem AreMembers.mono {weak strong : String → Prop} (himp : ∀ text, strong text → weak text)
    {members : List Validator} (h : AreMembers strong members) : AreMembers weak members := by
  cases members with
  | nil => trivial
  | cons m rest =>
      cases m with
      | member name value => exact ⟨IsExpression.mono himp h.1, AreMembers.mono himp h.2⟩
      | _ => exact h.elim
end

mutual
/-- The text of an expression that starts on a line of the given depth. -/
def layout (depth : Nat) : Validator → String
  | .ref name => quote name
  | .opt inner => "t.opt(" ++ layout depth inner ++ ")"
  | .param name type optional =>
    "t.param(" ++ quote name ++ ", " ++ layout depth type ++
      (if optional then ", true" else "") ++ ")"
  | .func result params =>
    "t.func(" ++ commaSeparated (layout depth result :: layoutAll depth params) ++ ")"
  | .iface bases members =>
    "t.iface([" ++ commaSeparated (layoutAll depth bases) ++ "], \x7b\n" ++
      layoutMembers depth members ++ margin depth ++ "\x7d)"
  | .array element => "t.array(" ++ layout depth element ++ ")"
  | .tuple elements => "t.tuple(" ++ commaSeparated (layoutAll depth elements) ++ ")"
  | .union members => "t.union(" ++ commaSeparated (layoutAll depth members) ++ ")"
  | .literal text => "t.lit(" ++ text ++ ")"
  | .member .. | .declaration .. | .module .. | .plain _ => ""

/-- The texts of a list of expressions on a line of the given depth. -/
def layoutAll (depth : Nat) : List Validator → List String
  | [] => []
  | e :: rest => layout depth e :: layoutAll depth rest

/-- The lines of the members of an interface that starts on a line of the given depth. -/
def layoutMembers (depth : Nat) : List Validator → String
  | .member name value :: rest =>
    margin (depth + 1) ++ quote name ++ ": " ++ layout (depth + 1) value ++ ",\n" ++
      layoutMembers depth rest
  | _ => ""
end

/-- Separated items are indented one by one. -/
theorem indent_comma_separated (items : List String) :
    indent (commaSeparated items) = commaSeparated (items.map indent) := by
  have hcomma : indent ", " = ", " := Text.indent_single_line (by decide)
  unfold commaSeparated
  induction items with
  | nil => rfl
  | cons first rest ih =>
      cases rest with
      | nil => simp [String.intercalate_singleton]
      | cons second rest =>
          rw [String.intercalate_cons_cons]
          simp [Text.indent_append, hcomma, ih]

/-- A literal on one line. -/
def OnOneLine (text : String) : Prop :=
  '\n' ∉ text.toList

mutual
/-- Indenting the text of an expression moves it one level in. -/
theorem indent_layout (depth : Nat) {e : Validator} (h : IsExpression OnOneLine e) :
    indent (layout depth e) = layout (depth + 1) e := by
  cases e with
  | ref name => exact Text.indent_quote name
  | opt inner =>
      simp (disch := decide) only [layout, Text.indent_append, Text.indent_single_line,
        indent_layout depth (e := inner) h]
  | param name type optional =>
      cases optional <;>
        simp (disch := decide) [layout, Text.indent_append, Text.indent_quote,
          Text.indent_single_line, indent_layout depth (e := type) h]
  | func result params =>
      simp (disch := decide) only [layout, Text.indent_append, Text.indent_single_line,
        indent_comma_separated, List.map_cons, indent_layout depth h.1,
        indent_layout_all depth h.2]
  | iface bases members =>
      -- The break behind the opening brace indents the first member, the last one's the brace.
      have hopen : indent "], \x7b\n" = "], \x7b\n" ++ Text.indentUnit := by decide
      have hlines := indent_layout_members depth h.2
      have hclose : Text.indentUnit ++ (indent (layoutMembers depth members) ++ (margin depth ++
          "\x7d)")) = layoutMembers (depth + 1) members ++ (margin (depth + 1) ++ "\x7d)") := by
        rw [← String.append_assoc, hlines, Text.margin_succ, String.append_assoc,
          String.append_assoc]
      simp (disch := decide) only [layout, Text.indent_append, Text.indent_single_line,
        indent_comma_separated, indent_layout_all depth h.1, Text.indent_margin, hopen,
        String.append_assoc, hclose]
  | array element =>
      simp (disch := decide) only [layout, Text.indent_append, Text.indent_single_line,
        indent_layout depth (e := element) h]
  | tuple elements =>
      simp (disch := decide) only [layout, Text.indent_append, Text.indent_single_line,
        indent_comma_separated, indent_layout_all depth h]
  | union members =>
      simp (disch := decide) only [layout, Text.indent_append, Text.indent_single_line,
        indent_comma_separated, indent_layout_all depth h]
  | literal text =>
      have htext : indent text = text := Text.indent_single_line h
      simp (disch := decide) only [layout, Text.indent_append, Text.indent_single_line, htext]
  | member | declaration | module | plain => exact h.elim

/-- The texts of a list of expressions are moved in one by one. -/
theorem indent_layout_all (depth : Nat) {es : List Validator}
    (h : AreExpressions OnOneLine es) :
    (layoutAll depth es).map indent = layoutAll (depth + 1) es := by
  cases es with
  | nil => rfl
  | cons e rest =>
      simp only [layoutAll, List.map_cons, indent_layout depth h.1, indent_layout_all depth h.2]

/-- Between the break in front of them and the one behind them, the lines of members are moved in
as a block. -/
theorem indent_layout_members (depth : Nat) {members : List Validator}
    (h : AreMembers OnOneLine members) :
    Text.indentUnit ++ indent (layoutMembers depth members) =
      layoutMembers (depth + 1) members ++ Text.indentUnit := by
  cases members with
  | nil => rfl
  | cons m rest =>
      cases m with
      | member name value =>
          have hend : indent ",\n" = ",\n" ++ Text.indentUnit := by decide
          simp (disch := decide) only [layoutMembers, Text.indent_append, Text.indent_quote,
            Text.indent_margin, Text.indent_single_line, hend, indent_layout (depth + 1) h.1,
            Text.margin_succ (depth + 1), String.append_assoc]
          rw [← indent_layout_members depth h.2]
      | _ => exact h.elim
end

/-- The line of a member whose value is written at depth zero. -/
theorem member_line_layout (name : String) {value : Validator} (h : IsExpression OnOneLine value) :
    memberLine name (layout 0 value) =
      margin 1 ++ quote name ++ ": " ++ layout 1 value ++ ",\n" := by
  simp (disch := decide) only [memberLine, Text.indent_append, Text.indent_quote,
    Text.indent_single_line, indent_layout 0 h, Text.margin_succ 0, Text.margin_zero,
    String.append_empty, String.append_assoc]

mutual
/-- An expression is written as it is laid out at depth zero. -/
theorem render_layout {e : Validator} (h : IsExpression OnOneLine e) :
    e.render = .ok (layout 0 e) := by
  cases e with
  | ref name => rfl
  | opt inner =>
      simp only [render, render_layout (e := inner) h, layout]
      rfl
  | param name type optional =>
      simp only [render, render_layout (e := type) h, layout]
      rfl
  | func result params =>
      simp only [render, render_layout h.1, render_all_layout h.2, layout]
      rfl
  | iface bases members =>
      simp only [render, render_members_layout h.2, render_all_layout h.1, layout,
        Text.margin_zero, String.append_empty]
      rfl
  | array element =>
      simp only [render, render_layout (e := element) h, layout]
      rfl
  | tuple elements =>
      simp only [render, render_all_layout h, layout]
      rfl
  | union members =>
      simp only [render, render_all_layout h, layout]
      rfl
  | literal text => rfl
  | member | declaration | module | plain => exact h.elim

/-- A list of expressions is written as it is laid out at depth zero. -/
theorem render_all_layout {es : List Validator} (h : AreExpressions OnOneLine es) :
    renderAll es = .ok (layoutAll 0 es) := by
  cases es with
  | nil => rfl
  | cons e rest =>
      simp only [renderAll, render_layout h.1, render_all_layout h.2, layoutAll]
      rfl

/-- The members of an interface are written as they are laid out at depth zero. -/
theorem render_members_layout {members : List Validator} (h : AreMembers OnOneLine members) :
    renderMembers members = .ok (layoutMembers 0 members) := by
  cases members with
  | nil => rfl
  | cons m rest =>
      cases m with
      | member name value =>
          simp only [renderMembers, render_layout h.1, render_members_layout h.2, layoutMembers]
          exact congrArg Except.ok (congrArg (· ++ _) (member_line_layout name h.1))
      | _ => exact h.elim
end

end TypeSuite.Validator
