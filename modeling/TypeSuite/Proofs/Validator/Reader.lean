import TypeSuite.Proofs.Text.Reading
import TypeSuite.Proofs.Validator.Layout

/-!
# A reader of written expressions

The reader undoes the layout of an expression without knowing its depth: it takes the blanks in
front of a member for what they are. `read_expression_layout` says that it gives back the expression
that was written, in front of any rest. The number that bounds its recursion is a count of the
builder calls and list items of the expression, which its text is never shorter than.
-/

namespace TypeSuite.Validator

open Text (consRead isQuote margin quote readLiteral? readQuoted? skip?)

/-- The builders of the checker. -/
inductive Call where
  | opt | param | func | iface | array | tuple | union | literal

namespace Call

/-- How a call of a builder starts. -/
def word : Call → String
  | opt => "t.opt("
  | param => "t.param("
  | func => "t.func("
  | iface => "t.iface(["
  | array => "t.array("
  | tuple => "t.tuple("
  | union => "t.union("
  | literal => "t.lit("

/-- The builders in a fixed order. -/
def all : List Call := [opt, param, func, iface, array, tuple, union, literal]

/-- Reads the start of a call. -/
def read? (text : List Char) : Option (Call × List Char) :=
  all.findSome? fun call => (skip? call.word text).map (call, ·)

/-- The start of a call is read as the start of that call. -/
theorem read_word (call : Call) (rest : List Char) :
    read? (call.word.toList ++ rest) = some (call, rest) := by
  cases call <;> simp [read?, all, skip?, word, List.dropPrefix?]

end Call

/-- A list of expressions ends in front of a closing bracket. -/
def closes : List Char → Bool
  | ')' :: _ => true
  | ']' :: _ => true
  | _ => false

mutual
/-- Reads an expression. -/
def readExpression? : Nat → List Char → Option (Validator × List Char)
  | 0, _ => none
  | fuel + 1, text =>
    match readQuoted? text with
    | some (name, rest) => some (.ref name, rest)
    | none => do
      let (call, rest) ← Call.read? text
      readCall? fuel call rest

/-- Reads what follows the start of a call. -/
def readCall? : Nat → Call → List Char → Option (Validator × List Char)
  | 0, _, _ => none
  | fuel + 1, .opt, text => do
    let (inner, rest) ← readExpression? fuel text
    return (.opt inner, ← skip? ")" rest)
  | fuel + 1, .param, text => do
    let (name, rest) ← readQuoted? text
    let (type, rest) ← readExpression? fuel (← skip? ", " rest)
    match skip? ", true" rest with
    | some rest => return (.param name type true, ← skip? ")" rest)
    | none => return (.param name type false, ← skip? ")" rest)
  | fuel + 1, .func, text => do
    let (result, rest) ← readExpression? fuel text
    let (params, rest) ← readFurther? fuel rest
    return (.func result params, ← skip? ")" rest)
  | fuel + 1, .iface, text => do
    let (bases, rest) ← readItems? fuel text
    let (members, rest) ← readMembers? fuel (← skip? "], \x7b\n" rest)
    return (.iface bases members, ← skip? "\x7d)" rest)
  | fuel + 1, .array, text => do
    let (element, rest) ← readExpression? fuel text
    return (.array element, ← skip? ")" rest)
  | fuel + 1, .tuple, text => do
    let (elements, rest) ← readItems? fuel text
    return (.tuple elements, ← skip? ")" rest)
  | fuel + 1, .union, text => do
    let (members, rest) ← readItems? fuel text
    return (.union members, ← skip? ")" rest)
  | _ + 1, .literal, text => do
    let (written, rest) ← readLiteral? text
    return (.literal written, ← skip? ")" rest)

/-- Reads the expressions of a list. -/
def readItems? : Nat → List Char → Option (List Validator × List Char)
  | 0, _ => none
  | fuel + 1, text =>
    if closes text then some ([], text)
    else do
      let (first, rest) ← readExpression? fuel text
      let (others, rest) ← readFurther? fuel rest
      return (first :: others, rest)

/-- Reads the further expressions of a list, each behind a comma. -/
def readFurther? : Nat → List Char → Option (List Validator × List Char)
  | 0, _ => none
  | fuel + 1, text =>
    match skip? ", " text with
    | none => some ([], text)
    | some rest => do
      let (next, rest) ← readExpression? fuel rest
      let (others, rest) ← readFurther? fuel rest
      return (next :: others, rest)

/-- Reads the members of an interface and the margin behind them. -/
def readMembers? : Nat → List Char → Option (List Validator × List Char)
  | 0, _ => none
  | fuel + 1, text =>
    let text := text.dropWhile (· == ' ')
    match readQuoted? text with
    | none => some ([], text)
    | some (name, rest) => do
      let (value, rest) ← readExpression? fuel (← skip? ": " rest)
      let (others, rest) ← readMembers? fuel (← skip? ",\n" rest)
      return (.member name value :: others, rest)
end

mutual
/-- How deep the reader goes for an expression. -/
def span : Validator → Nat
  | .opt inner => span inner + 2
  | .param _ type _ => span type + 2
  | .func result params => span result + spanAll params + 2
  | .iface bases members => spanAll bases + spanMembers members + 2
  | .array element => span element + 2
  | .tuple elements => spanAll elements + 2
  | .union members => spanAll members + 2
  | _ => 2

/-- How deep the reader goes for a list of expressions. -/
def spanAll : List Validator → Nat
  | [] => 1
  | e :: rest => span e + spanAll rest + 1

/-- How deep the reader goes for the members of an interface. -/
def spanMembers : List Validator → Nat
  | .member _ value :: rest => span value + spanMembers rest + 1
  | _ => 1
end

/-- The text of the further items of a list, each behind a comma. -/
def furtherText (items : List String) : List Char :=
  items.flatMap fun item => ", ".toList ++ item.toList

/-- A list of at least one item is its first one and the further ones. -/
theorem to_list_comma_separated (first : String) (others : List String) :
    (commaSeparated (first :: others)).toList = first.toList ++ furtherText others := by
  unfold commaSeparated
  induction others generalizing first with
  | nil => simp [furtherText]
  | cons second others ih =>
      rw [String.intercalate_cons_cons, String.toList_append, String.toList_append, ih]
      simp [furtherText]

/-- The text of further items starts with the comma in front of the first of them. -/
theorem further_text_layout_cons (depth : Nat) (e : Validator) (others : List Validator) :
    furtherText (layoutAll depth (e :: others)) =
      ", ".toList ++ ((layout depth e).toList ++ furtherText (layoutAll depth others)) := by
  simp [furtherText, layoutAll]

/-- A quoted text starts with a quote. -/
theorem to_list_quote (text : String) :
    ∃ rest, (quote text).toList = '\x22' :: rest := by
  exact ⟨text.toList.flatMap Text.escapeChar ++ ['\x22'], by simp [quote]⟩

/-- A margin is taken off in front of a character other than the space. -/
theorem drop_margin (depth : Nat) {c : Char} (hc : c ≠ ' ') (rest : List Char) :
    ((margin depth).toList ++ c :: rest).dropWhile (· == ' ') = c :: rest := by
  simp [margin, List.dropWhile_append_of_pos, hc]

/-- The start of a call is no quoted text, so its arguments are read next. -/
theorem read_expression_word (fuel : Nat) (call : Call) (rest : List Char) :
    readExpression? (fuel + 1) (call.word.toList ++ rest) = readCall? fuel call rest := by
  have hquoted : readQuoted? (call.word.toList ++ rest) = none := by
    cases call <;> rfl
  simp only [readExpression?, hquoted, Call.read_word]
  rfl

/-- A list that ends has no further item. -/
theorem skip_comma_of_closes {text : List Char} (h : closes text = true) :
    skip? ", " text = none := by
  unfold closes at h
  split at h <;> simp_all [skip?, List.dropPrefix?]

/-- The reader goes at least two steps deep for an expression. -/
theorem two_le_span (e : Validator) : 2 ≤ span e := by
  cases e <;> simp [span]

/-- The reader goes at least one step deep for a list. -/
theorem exists_step_of_span_all {es : List Validator} {fuel : Nat} (h : spanAll es ≤ fuel) :
    ∃ k, fuel = k + 1 := by
  refine ⟨fuel - 1, ?_⟩
  cases es <;> simp only [spanAll] at h <;> omega

/-- The reader goes at least one step deep for the members of an interface. -/
theorem exists_step_of_span_members {members : List Validator} {fuel : Nat}
    (h : spanMembers members ≤ fuel) : ∃ k, fuel = k + 1 := by
  refine ⟨fuel - 1, ?_⟩
  unfold spanMembers at h
  split at h <;> omega

/-- A written expression does not start with a closing bracket. -/
theorem closes_layout (depth : Nat) {e : Validator} (h : IsExpression Text.IsLiteral e)
    (rest : List Char) : closes ((layout depth e).toList ++ rest) = false := by
  cases e with
  | ref name =>
      obtain ⟨tail, htail⟩ := to_list_quote name
      simp [layout, htail, closes]
  | member | declaration | module | plain => exact h.elim
  | _ => simp [layout, closes]

/-- A closing parenthesis ends a list. -/
theorem closes_parenthesis (rest : List Char) : closes (")".toList ++ rest) = true := by
  simp [closes]

mutual
/-- The reader gives back a written expression in front of any rest. -/
theorem read_expression_layout (depth : Nat) {e : Validator}
    (h : IsExpression Text.IsLiteral e) {fuel : Nat} (hfuel : span e ≤ fuel) (rest : List Char) :
    readExpression? fuel ((layout depth e).toList ++ rest) = some (e, rest) := by
  obtain ⟨fuel, rfl⟩ : ∃ k, fuel = k + 2 := ⟨fuel - 2, by have := two_le_span e; omega⟩
  have hword := read_expression_word (fuel + 1)
  cases e with
  | ref name => simp only [layout, readExpression?, Text.read_quoted_quote]
  | opt inner =>
      have hinner : IsExpression Text.IsLiteral inner := h
      have hle : span inner ≤ fuel := by simpa [span] using hfuel
      have hread := read_expression_layout depth hinner hle
      simp only [layout, String.toList_append, List.append_assoc]
      rw [show "t.opt(" = Call.opt.word from rfl, hword]
      simp only [readCall?, hread, Text.skip_append, Option.bind_eq_bind, Option.bind_some]
      rfl
  | param name type optional =>
      have htype : IsExpression Text.IsLiteral type := h
      have hle : span type ≤ fuel := by simpa [span] using hfuel
      have hread := read_expression_layout depth htype hle
      -- A required parameter has its closing parenthesis where the mark of an optional one stands.
      have hrequired : skip? ", true" (")".toList ++ rest) = none :=
        Text.skip_of_head_ne (c := ',') (d := ')') (by decide) rfl (by decide)
      simp only [layout, String.toList_append, List.append_assoc]
      rw [show "t.param(" = Call.param.word from rfl, hword]
      cases optional <;>
        simp only [readCall?, hread, hrequired, Text.read_quoted_quote, Text.skip_append,
          Option.bind_eq_bind, Option.bind_some, if_true, Bool.false_eq_true, if_false,
          String.toList_empty, List.nil_append] <;>
        rfl
  | func result params =>
      have hle : span result ≤ fuel ∧ spanAll params ≤ fuel := by
        simp only [span] at hfuel
        omega
      have hread := read_expression_layout depth h.1 hle.1
      have hfurther := read_further_layout depth h.2 hle.2 (closes_parenthesis rest)
      simp only [layout, String.toList_append, to_list_comma_separated, List.append_assoc]
      rw [show "t.func(" = Call.func.word from rfl, hword]
      simp only [readCall?, hread, hfurther, Text.skip_append, Option.bind_eq_bind,
        Option.bind_some]
      rfl
  | iface bases members =>
      have hle : spanAll bases ≤ fuel ∧ spanMembers members ≤ fuel := by
        simp only [span] at hfuel
        omega
      -- The margin in front of the closing brace goes with the members.
      have hclose : closes ("], \x7b\n".toList ++ ((layoutMembers depth members).toList ++
          ((margin depth).toList ++ ("\x7d)".toList ++ rest)))) = true := by
        simp [closes]
      have hbases := read_items_layout depth h.1 hle.1 hclose
      have hmembers := read_members_layout depth h.2 hle.2 (')' :: rest)
      have hend : skip? "\x7d)" ('\x7d' :: ')' :: rest) = some rest := by
        simp [skip?, List.dropPrefix?]
      simp only [layout, String.toList_append, List.append_assoc]
      rw [show "t.iface([" = Call.iface.word from rfl, hword]
      simp only [readCall?, hbases, Text.skip_append, Option.bind_eq_bind, Option.bind_some]
      rw [show "\x7d)".toList ++ rest = '\x7d' :: ')' :: rest by simp, hmembers, Option.bind_some,
        hend]
      rfl
  | array element =>
      have helement : IsExpression Text.IsLiteral element := h
      have hle : span element ≤ fuel := by simpa [span] using hfuel
      have hread := read_expression_layout depth helement hle
      simp only [layout, String.toList_append, List.append_assoc]
      rw [show "t.array(" = Call.array.word from rfl, hword]
      simp only [readCall?, hread, Text.skip_append, Option.bind_eq_bind, Option.bind_some]
      rfl
  | tuple elements =>
      have hle : spanAll elements ≤ fuel := by simpa [span] using hfuel
      have helements : AreExpressions Text.IsLiteral elements := h
      have hread := read_items_layout depth helements hle (closes_parenthesis rest)
      simp only [layout, String.toList_append, List.append_assoc]
      rw [show "t.tuple(" = Call.tuple.word from rfl, hword]
      simp only [readCall?, hread, Text.skip_append, Option.bind_eq_bind, Option.bind_some]
      rfl
  | union members =>
      have hle : spanAll members ≤ fuel := by simpa [span] using hfuel
      have hmembers : AreExpressions Text.IsLiteral members := h
      have hread := read_items_layout depth hmembers hle (closes_parenthesis rest)
      simp only [layout, String.toList_append, List.append_assoc]
      rw [show "t.union(" = Call.union.word from rfl, hword]
      simp only [readCall?, hread, Text.skip_append, Option.bind_eq_bind, Option.bind_some]
      rfl
  | literal text =>
      have hliteral : Text.IsLiteral text := h
      have hread := Text.read_literal_append hliteral rest
      have hclose : skip? ")" (')' :: rest) = some rest := by
        simp [skip?, List.dropPrefix?]
      simp only [layout, String.toList_append, List.append_assoc]
      rw [show "t.lit(" = Call.literal.word from rfl, hword,
        show ")".toList ++ rest = ')' :: rest by simp]
      simp only [readCall?, hread, hclose, Option.bind_eq_bind, Option.bind_some]
      rfl
  | member | declaration | module | plain => exact h.elim

/-- The reader gives back the written items of a list up to its closing bracket. -/
theorem read_items_layout (depth : Nat) {es : List Validator}
    (h : AreExpressions Text.IsLiteral es) {fuel : Nat} (hfuel : spanAll es ≤ fuel)
    {rest : List Char} (hrest : closes rest = true) :
    readItems? fuel ((commaSeparated (layoutAll depth es)).toList ++ rest) = some (es, rest) := by
  cases es with
  | nil =>
      obtain ⟨fuel, rfl⟩ := exists_step_of_span_all hfuel
      simp [layoutAll, commaSeparated, readItems?, hrest]
  | cons e others =>
      obtain ⟨fuel, rfl⟩ := exists_step_of_span_all hfuel
      have hle : span e ≤ fuel ∧ spanAll others ≤ fuel := by
        simp only [spanAll] at hfuel
        omega
      have hread := read_expression_layout depth h.1 hle.1
      have hfurther := read_further_layout depth h.2 hle.2 hrest
      simp only [layoutAll, to_list_comma_separated, List.append_assoc, readItems?,
        closes_layout depth h.1, Bool.false_eq_true, if_false, hread, hfurther,
        Option.bind_eq_bind, Option.bind_some]
      rfl

/-- The reader gives back the written further items of a list up to its closing bracket. -/
theorem read_further_layout (depth : Nat) {es : List Validator}
    (h : AreExpressions Text.IsLiteral es) {fuel : Nat} (hfuel : spanAll es ≤ fuel)
    {rest : List Char} (hrest : closes rest = true) :
    readFurther? fuel (furtherText (layoutAll depth es) ++ rest) = some (es, rest) := by
  cases es with
  | nil =>
      obtain ⟨fuel, rfl⟩ := exists_step_of_span_all hfuel
      simp [layoutAll, furtherText, readFurther?, skip_comma_of_closes hrest]
  | cons e others =>
      obtain ⟨fuel, rfl⟩ := exists_step_of_span_all hfuel
      have hle : span e ≤ fuel ∧ spanAll others ≤ fuel := by
        simp only [spanAll] at hfuel
        omega
      have hread := read_expression_layout depth h.1 hle.1
      have hfurther := read_further_layout depth h.2 hle.2 hrest
      simp only [further_text_layout_cons, List.append_assoc, readFurther?, Text.skip_append,
        hread, hfurther, Option.bind_eq_bind, Option.bind_some]
      rfl

/-- The reader gives back the written members of an interface and takes off the margin behind
them. -/
theorem read_members_layout (depth : Nat) {members : List Validator}
    (h : AreMembers Text.IsLiteral members) {fuel : Nat} (hfuel : spanMembers members ≤ fuel)
    (rest : List Char) :
    readMembers? fuel ((layoutMembers depth members).toList ++
      ((margin depth).toList ++ '\x7d' :: rest)) = some (members, '\x7d' :: rest) := by
  cases members with
  | nil =>
      obtain ⟨fuel, rfl⟩ := exists_step_of_span_members hfuel
      have hmargin := drop_margin depth (c := '\x7d') (by decide) rest
      simp [layoutMembers, readMembers?, hmargin, readQuoted?]
  | cons m others =>
      cases m with
      | member name value =>
          obtain ⟨fuel, rfl⟩ := exists_step_of_span_members hfuel
          have hle : span value ≤ fuel ∧ spanMembers others ≤ fuel := by
            simp only [spanMembers] at hfuel
            omega
          have hread := read_expression_layout (depth + 1) h.1 hle.1
          have hothers := read_members_layout depth h.2 hle.2 rest
          have hmargin : ∀ text, ((margin (depth + 1)).toList ++ ((quote name).toList ++
              text)).dropWhile (· == ' ') = (quote name).toList ++ text := by
            intro text
            obtain ⟨tail, htail⟩ := to_list_quote name
            rw [htail, List.cons_append, drop_margin _ (by decide)]
          simp only [layoutMembers, String.toList_append, List.append_assoc, readMembers?,
            hmargin, Text.read_quoted_quote, Text.skip_append, hread, hothers,
            Option.bind_eq_bind, Option.bind_some]
          rfl
      | _ => exact h.elim
end

mutual
/-- The text of an expression is no shorter than the reader goes deep for it. -/
theorem span_le_length (depth : Nat) {e : Validator} (h : IsExpression Text.IsLiteral e) :
    span e ≤ (layout depth e).toList.length := by
  cases e with
  | ref name =>
      simp [span, layout, quote]
  | opt inner =>
      have := span_le_length depth (e := inner) h
      simp [span, layout]
      omega
  | param name type optional =>
      have := span_le_length depth (e := type) h
      simp [span, layout]
      omega
  | func result params =>
      have := span_le_length depth h.1
      have := span_further_le_length depth h.2
      simp only [span, layout, String.toList_append, to_list_comma_separated, List.length_append]
      simp
      omega
  | iface bases members =>
      have := span_items_le_length depth h.1
      have := span_members_le_length depth h.2
      simp [span, layout]
      omega
  | array element =>
      have := span_le_length depth (e := element) h
      simp [span, layout]
      omega
  | tuple elements =>
      have helements : AreExpressions Text.IsLiteral elements := h
      have := span_items_le_length depth helements
      simp [span, layout]
      omega
  | union members =>
      have hmembers : AreExpressions Text.IsLiteral members := h
      have := span_items_le_length depth hmembers
      simp [span, layout]
      omega
  | literal text => simp [span, layout]
  | member | declaration | module | plain => exact h.elim

/-- The text of a list is at most two characters shorter than the reader goes deep for it. -/
theorem span_items_le_length (depth : Nat) {es : List Validator}
    (h : AreExpressions Text.IsLiteral es) :
    spanAll es ≤ (commaSeparated (layoutAll depth es)).toList.length + 2 := by
  cases es with
  | nil => simp [spanAll]
  | cons e others =>
      have := span_le_length depth h.1
      have := span_further_le_length depth h.2
      simp only [spanAll, layoutAll, to_list_comma_separated, List.length_append]
      omega

/-- The text of further items is at most one character shorter than the reader goes deep for
them. -/
theorem span_further_le_length (depth : Nat) {es : List Validator}
    (h : AreExpressions Text.IsLiteral es) :
    spanAll es ≤ (furtherText (layoutAll depth es)).length + 1 := by
  cases es with
  | nil => simp [spanAll]
  | cons e others =>
      have := span_le_length depth h.1
      have := span_further_le_length depth h.2
      simp only [spanAll, further_text_layout_cons, List.length_append]
      simp
      omega

/-- The lines of members are at most one character shorter than the reader goes deep for them. -/
theorem span_members_le_length (depth : Nat) {members : List Validator}
    (h : AreMembers Text.IsLiteral members) :
    spanMembers members ≤ (layoutMembers depth members).toList.length + 1 := by
  cases members with
  | nil => simp [spanMembers]
  | cons m others =>
      cases m with
      | member name value =>
          have := span_le_length (depth + 1) h.1
          have := span_members_le_length depth h.2
          simp [spanMembers, layoutMembers]
          omega
      | _ => exact h.elim
end

end TypeSuite.Validator
