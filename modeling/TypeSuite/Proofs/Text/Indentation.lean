import Mathlib.Data.List.Basic
import Mathlib.Logic.Function.Iterate
import TypeSuite.Text.Lines
import TypeSuite.Text.Quoted

/-!
# Indentation of joined texts

Indenting is a map on characters, so it goes through joined texts, and it leaves a text on one line
alone, and no other text. `margin depth` is what indenting `depth` times puts behind a line break.
-/

namespace TypeSuite.Text

/-- The start of a line at a depth. -/
def margin (depth : Nat) : String :=
  String.ofList (List.replicate (2 * depth) ' ')

/-- At depth zero a line starts at once. -/
theorem margin_zero : margin 0 = "" :=
  rfl

/-- One level further in, a line starts with one more unit. -/
theorem margin_succ (depth : Nat) : margin (depth + 1) = indentUnit ++ margin depth := by
  rw [← String.toList_inj]
  simp [margin, indentUnit, Nat.mul_add, List.replicate_succ]

/-- Two texts are indented one after the other. -/
theorem indent_append (first second : String) :
    indent (first ++ second) = indent first ++ indent second := by
  simp [indent, List.flatMap_append]

/-- Indenting leaves a text on one line alone. -/
theorem indent_single_line {text : String} (h : '\n' ∉ text.toList) : indent text = text := by
  have hkeep : ∀ c ∈ text.toList, indentChar c = [c] := by
    intro c hc
    exact if_neg fun (heq : c = '\n') => h (heq ▸ hc)
  rw [indent, List.flatMap_congr hkeep, List.flatMap_singleton', String.ofList_toList]

/-- Two texts are indented one after the other, however often. -/
theorem indent_iterate_append (depth : Nat) (first second : String) :
    indent^[depth] (first ++ second) = indent^[depth] first ++ indent^[depth] second := by
  induction depth with
  | zero => rfl
  | succ depth ih => simp only [Function.iterate_succ_apply', ih, indent_append]

/-- Indenting takes no character away, and adds some behind each line break. -/
theorem length_indent (text : String) :
    (indent text).length = text.length + 2 * text.toList.count '\n' := by
  rw [indent, String.length_ofList, ← String.length_toList]
  induction text.toList with
  | nil => rfl
  | cons c cs ih =>
      rw [List.flatMap_cons, List.length_append, ih]
      by_cases hc : c = '\n'
      · simp [indentChar, indentUnit, hc]
        omega
      · simp [indentChar, hc]
        omega

/-- However often it is indented, a text loses no character. -/
theorem length_le_indent_iterate (depth : Nat) (text : String) :
    text.length ≤ (indent^[depth] text).length := by
  induction depth with
  | zero => exact Nat.le_refl _
  | succ depth ih =>
      rw [Function.iterate_succ_apply', length_indent]
      omega

/-- Indenting some times leaves exactly the texts on one line alone. -/
theorem indent_iterate_eq_self_iff (depth : Nat) (text : String) :
    indent^[depth] text = text ↔ depth = 0 ∨ '\n' ∉ text.toList := by
  constructor
  · intro hsame
    by_contra! hgrows
    obtain ⟨hdepth, hbreak⟩ := hgrows
    obtain ⟨depth, rfl⟩ := Nat.exists_eq_succ_of_ne_zero hdepth
    -- The first indentation adds characters, and no further one takes them away.
    have hcount : 0 < text.toList.count '\n' := List.count_pos_iff.mpr hbreak
    have hle := length_le_indent_iterate depth (indent text)
    rw [← Function.iterate_succ_apply, hsame, length_indent] at hle
    omega
  · rintro (rfl | hline)
    · rfl
    · exact Function.iterate_fixed (indent_single_line hline) depth

/-- A margin is on one line. -/
theorem line_break_not_mem_margin (depth : Nat) : '\n' ∉ (margin depth).toList := by
  simp [margin]

/-- Indenting leaves a margin alone. -/
theorem indent_margin (depth : Nat) : indent (margin depth) = margin depth :=
  indent_single_line (line_break_not_mem_margin depth)

/-- A character below the space is never written as itself, so no line break is. -/
theorem line_break_not_mem_escape_char (c : Char) : '\n' ∉ escapeChar c := by
  unfold escapeChar
  split
  case h_8 hline _ _ _ _ =>
    split
    case isTrue h =>
      have hdigit : ∀ n < 16, '\n' ≠ hexDigit n := by decide
      have hhigh := hdigit (c.toNat / 16) (by omega)
      have hlow := hdigit (c.toNat % 16) (by omega)
      simp [hhigh, hlow]
    case isFalse => simpa using fun heq => hline heq.symm
  all_goals decide

/-- A quoted text is on one line, whatever the text is. -/
theorem line_break_not_mem_quote (text : String) : '\n' ∉ (quote text).toList := by
  simp [quote, List.mem_flatMap, line_break_not_mem_escape_char]

/-- Indenting leaves a quoted text alone. -/
theorem indent_quote (text : String) : indent (quote text) = quote text :=
  indent_single_line (line_break_not_mem_quote text)

end TypeSuite.Text
