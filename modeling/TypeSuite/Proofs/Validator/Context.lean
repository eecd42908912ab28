import TypeSuite.Proofs.Validator.Renderable

/-!
# Expressions with a hole

A context is an expression with a hole in it. The text of a filled context is made of what is
written around the hole and of the text that fills it, which every member value around the hole
indents once (`Context.render_fill`).

So a literal is written as it is, unless it stands under a member and goes over several lines:
`literal_verbatim_iff`.
-/

namespace TypeSuite.Validator

open Text (indent quote)

variable {literal : String → Prop}

/-- An expression with a hole. -/
inductive Context where
  | hole
  | opt (inner : Context)
  | param (name : String) (inner : Context) (optional : Bool)
  | funcResult (inner : Context) (params : List Validator)
  | funcParam (result : Validator) (before : List Validator) (inner : Context)
      (after : List Validator)
  | ifaceBase (before : List Validator) (inner : Context) (after members : List Validator)
  | ifaceMember (bases before : List Validator) (name : String) (inner : Context)
      (after : List Validator)
  | array (inner : Context)
  | tuple (before : List Validator) (inner : Context) (after : List Validator)
  | union (before : List Validator) (inner : Context) (after : List Validator)

namespace Context

/-- Puts an expression into the hole. -/
def fill (e : Validator) : Context → Validator
  | hole => e
  | opt inner => .opt (inner.fill e)
  | param name inner optional => .param name (inner.fill e) optional
  | funcResult inner params => .func (inner.fill e) params
  | funcParam result before inner after => .func result (before ++ inner.fill e :: after)
  | ifaceBase before inner after members => .iface (before ++ inner.fill e :: after) members
  | ifaceMember bases before name inner after =>
    .iface bases (before ++ .member name (inner.fill e) :: after)
  | array inner => .array (inner.fill e)
  | tuple before inner after => .tuple (before ++ inner.fill e :: after)
  | union before inner after => .union (before ++ inner.fill e :: after)

/-- The number of member values around the hole. -/
def depth : Context → Nat
  | hole => 0
  | ifaceMember _ _ _ inner _ => inner.depth + 1
  | opt inner | param _ inner _ | funcResult inner _ | funcParam _ _ inner _
  | ifaceBase _ inner _ _ | array inner | tuple _ inner _ | union _ inner _ => inner.depth

/-- Puts a context into the hole. -/
def comp : Context → Context → Context
  | hole, D => D
  | opt inner, D => .opt (inner.comp D)
  | param name inner optional, D => .param name (inner.comp D) optional
  | funcResult inner params, D => .funcResult (inner.comp D) params
  | funcParam result before inner after, D => .funcParam result before (inner.comp D) after
  | ifaceBase before inner after members, D => .ifaceBase before (inner.comp D) after members
  | ifaceMember bases before name inner after, D =>
    .ifaceMember bases before name (inner.comp D) after
  | array inner, D => .array (inner.comp D)
  | tuple before inner after, D => .tuple before (inner.comp D) after
  | union before inner after, D => .union before (inner.comp D) after

/-- A context in a context is filled from the inside. -/
theorem fill_comp (C D : Context) (e : Validator) : (C.comp D).fill e = C.fill (D.fill e) := by
  induction C with
  | hole => rfl
  | _ => simp_all [comp, fill]

/-- The member values around a hole are counted through both contexts. -/
theorem depth_comp (C D : Context) : (C.comp D).depth = C.depth + D.depth := by
  induction C with
  | hole => simp [comp, depth]
  | ifaceMember _ _ _ _ _ ih => simp [comp, depth, ih, Nat.add_right_comm]
  | _ => simp_all [comp, depth]

end Context

/-! ## Lists with a hole -/

/-- What is written around an item of a list does not depend on the item. -/
theorem comma_separated_around (before after : List String) :
    ∃ start finish, ∀ item,
      commaSeparated (before ++ item :: after) = start ++ item ++ finish := by
  obtain ⟨finish, hfinish⟩ : ∃ finish, ∀ item, commaSeparated (item :: after) = item ++ finish := by
    by_cases hafter : after = []
    · exact ⟨"", fun item => by simp [commaSeparated, hafter]⟩
    · refine ⟨", " ++ commaSeparated after, fun item => ?_⟩
      rw [commaSeparated, String.intercalate_cons_of_ne_nil hafter, String.append_assoc,
        ← commaSeparated]
  by_cases hbefore : before = []
  · exact ⟨"", finish, fun item => by rw [hbefore, List.nil_append, hfinish, String.empty_append]⟩
  · refine ⟨commaSeparated before ++ ", ", finish, fun item => ?_⟩
    rw [commaSeparated, String.intercalate_append_of_ne_nil hbefore (List.cons_ne_nil _ _),
      ← commaSeparated, ← commaSeparated, hfinish]
    simp only [String.append_assoc]

/-- Expressions with a written form are written in front of any others. -/
theorem render_all_append {es : List Validator} (h : AreExpressions literal es) :
    ∃ items, ∀ {rest others}, renderAll rest = .ok others →
      renderAll (es ++ rest) = .ok (items ++ others) := by
  induction es with
  | nil => exact ⟨[], fun hrest => hrest⟩
  | cons e es ih =>
      obtain ⟨text, htext⟩ := render_ok h.1
      obtain ⟨items, hitems⟩ := ih h.2
      refine ⟨text :: items, fun hrest => ?_⟩
      rw [List.cons_append, renderAll, htext, hitems hrest]
      rfl

/-- Members with a written form are written in front of any others. -/
theorem render_members_append {members : List Validator} (h : AreMembers literal members) :
    ∃ lines, ∀ {rest others}, renderMembers rest = .ok others →
      renderMembers (members ++ rest) = .ok (lines ++ others) := by
  induction members with
  | nil => exact ⟨"", fun hrest => by rw [List.nil_append, String.empty_append, hrest]⟩
  | cons m members ih =>
      cases m with
      | member name value =>
          obtain ⟨text, htext⟩ := render_ok h.1
          obtain ⟨lines, hlines⟩ := ih h.2
          refine ⟨memberLine name text ++ lines, fun hrest => ?_⟩
          rw [List.cons_append, renderMembers, htext, hlines hrest, String.append_assoc]
          rfl
      | _ => exact h.elim

/-- What is written around an expression of a list does not depend on the expression. -/
theorem render_all_around {before after : List Validator} {e : Validator}
    (h : AreExpressions literal (before ++ e :: after)) :
    ∃ items others, ∀ {inner text}, inner.render = .ok text →
      renderAll (before ++ inner :: after) = .ok (items ++ text :: others) := by
  simp only [are_expressions_iff, List.forall_mem_append, List.forall_mem_cons] at h
  obtain ⟨items, hitems⟩ := render_all_append (are_expressions_iff.mpr h.1)
  obtain ⟨others, hothers⟩ := render_all_ok (are_expressions_iff.mpr h.2.2)
  refine ⟨items, others, fun htext => hitems ?_⟩
  rw [renderAll, htext, hothers]
  rfl

/-- What is written around the line of a member does not depend on its value. -/
theorem render_members_around {before after : List Validator} {name : String} {e : Validator}
    (h : AreMembers literal (before ++ .member name e :: after)) :
    ∃ start finish, ∀ {inner text}, inner.render = .ok text →
      renderMembers (before ++ .member name inner :: after) =
        .ok (start ++ memberLine name text ++ finish) := by
  simp only [are_members_iff, List.forall_mem_append, List.forall_mem_cons] at h
  obtain ⟨start, hstart⟩ := render_members_append (are_members_iff.mpr h.1)
  obtain ⟨finish, hfinish⟩ := render_members_ok (are_members_iff.mpr h.2.2)
  refine ⟨start, finish, fun htext => ?_⟩
  rw [String.append_assoc]
  apply hstart
  rw [renderMembers, htext, hfinish]
  rfl

/-- The list in which a context has its hole is an expression list of the filled context. -/
theorem AreExpressions.at_hole {before after : List Validator} {e : Validator}
    (h : AreExpressions literal (before ++ e :: after)) : IsExpression literal e :=
  are_expressions_iff.mp h e (by simp)

/-- The value of a member with a written form has a written form. -/
theorem AreMembers.at_hole {before after : List Validator} {name : String} {e : Validator}
    (h : AreMembers literal (before ++ .member name e :: after)) : IsExpression literal e := by
  obtain ⟨_, _, heq, hvalue⟩ := are_members_iff.mp h (.member name e) (by simp)
  cases heq
  exact hvalue

/-! ## Filled contexts -/

/-- What a function puts around an expression is written around the text of the expression, which
is indented some times, and does not depend on it. -/
def Surrounds (count : Nat) (f : Validator → Validator) : Prop :=
  ∃ before after, ∀ {inner text}, inner.render = .ok text →
    (f inner).render = .ok (before ++ indent^[count] text ++ after)

/-- One surrounding is written around the other. -/
theorem Surrounds.comp {m n : Nat} {f g : Validator → Validator} (hf : Surrounds m f)
    (hg : Surrounds n g) : Surrounds (m + n) (f ∘ g) := by
  obtain ⟨start, finish, houter⟩ := hf
  obtain ⟨before, after, hinner⟩ := hg
  refine ⟨start ++ indent^[m] before, indent^[m] after ++ finish, fun htext => ?_⟩
  rw [Function.comp_apply, houter (hinner htext), Text.indent_iterate_append,
    Text.indent_iterate_append, Function.iterate_add_apply]
  simp only [String.append_assoc]

/-- What has a list of expressions among its separated items is written around each expression of
the list. -/
theorem surrounds_item (layer : List Validator → Validator) {before after : List Validator}
    {e : Validator} (h : AreExpressions literal (before ++ e :: after)) (start finish : String)
    (first : List String)
    (hlayer : ∀ {es items}, renderAll es = .ok items →
      (layer es).render = .ok (start ++ commaSeparated (first ++ items) ++ finish)) :
    Surrounds 0 fun inner => layer (before ++ inner :: after) := by
  obtain ⟨items, others, hitems⟩ := render_all_around h
  obtain ⟨lead, trail, hlist⟩ := comma_separated_around (first ++ items) others
  refine ⟨start ++ lead, trail ++ finish, fun {inner text} htext => ?_⟩
  have hseparated :
      commaSeparated (first ++ (items ++ text :: others)) = lead ++ text ++ trail := by
    rw [← List.append_assoc, hlist]
  rw [hlayer (hitems htext), hseparated]
  simp only [String.append_assoc, Function.iterate_zero, id]

/-- A function is written around its result. -/
theorem surrounds_result {params : List Validator} (h : AreExpressions literal params) :
    Surrounds 0 fun result => .func result params := by
  obtain ⟨others, hothers⟩ := render_all_ok h
  obtain ⟨start, finish, hlist⟩ := comma_separated_around [] others
  refine ⟨"t.func(" ++ start, finish ++ ")", fun {inner text} htext => ?_⟩
  have hfunc : (Validator.func inner params).render =
      .ok ("t.func(" ++ commaSeparated ([] ++ text :: others) ++ ")") := by
    rw [render, htext, hothers]
    rfl
  rw [hfunc, hlist]
  simp only [String.append_assoc, Function.iterate_zero, id]

/-- An interface is written around the value of a member, which is indented. -/
theorem surrounds_value {bases before after : List Validator} {name : String} {e : Validator}
    (hbases : AreExpressions literal bases)
    (hmembers : AreMembers literal (before ++ .member name e :: after)) :
    Surrounds 1 fun inner => .iface bases (before ++ .member name inner :: after) := by
  obtain ⟨items, hitems⟩ := render_all_ok hbases
  obtain ⟨start, finish, hlines⟩ := render_members_around hmembers
  have hline (text : String) : memberLine name text =
      Text.indentUnit ++ quote name ++ ": " ++ indent text ++ ",\n" := by
    simp (disch := decide) only [memberLine, Text.indent_append, Text.indent_quote,
      Text.indent_single_line, String.append_assoc]
  refine ⟨"t.iface([" ++ commaSeparated items ++ "], \x7b\n" ++ start ++ Text.indentUnit ++
    quote name ++ ": ", ",\n" ++ finish ++ "\x7d)", fun {inner text} htext => ?_⟩
  have hiface : (Validator.iface bases (before ++ .member name inner :: after)).render =
      .ok ("t.iface([" ++ commaSeparated items ++ "], \x7b\n" ++
        (start ++ memberLine name text ++ finish) ++ "\x7d)") := by
    rw [render, hlines htext, hitems]
    rfl
  rw [hiface, hline]
  simp only [String.append_assoc, Function.iterate_one]

/-- An expression is written in a context as it is written alone, indented once for each member
value around it. -/
theorem Context.render_fill (C : Context) {e : Validator} (h : IsExpression literal (C.fill e)) :
    Surrounds C.depth fun inner => C.fill inner := by
  -- Every layer but a member leaves the text of what is in it alone.
  have hlayer {f : Validator → Validator} {C : Context} (hf : Surrounds 0 f)
      (hC : Surrounds C.depth fun inner => C.fill inner) :
      Surrounds C.depth (f ∘ fun inner => C.fill inner) := by
    simpa using hf.comp hC
  induction C with
  | hole => exact ⟨"", "", fun htext => by simpa [fill, depth] using htext⟩
  | opt C ih =>
      refine hlayer ⟨"t.opt(", ")", fun htext => ?_⟩ (ih h)
      rw [render, htext]
      rfl
  | param name C optional ih =>
      refine hlayer (f := fun type => .param name type optional)
        ⟨"t.param(" ++ quote name ++ ", ", (if optional then ", true" else "") ++ ")",
          fun htext => ?_⟩ (ih h)
      rw [render, htext, ← String.append_assoc]
      rfl
  | funcResult C params ih => exact hlayer (surrounds_result h.2) (ih h.1)
  | funcParam result before C after ih =>
      obtain ⟨first, hfirst⟩ := render_ok h.1
      refine hlayer (surrounds_item (.func result) h.2 "t.func(" ")" [first] fun hitems => ?_)
        (ih h.2.at_hole)
      rw [render, hfirst, hitems]
      rfl
  | ifaceBase before C after members ih =>
      obtain ⟨lines, hlines⟩ := render_members_ok h.2
      refine hlayer (surrounds_item (.iface · members) h.1 "t.iface(["
        ("], \x7b\n" ++ lines ++ "\x7d)") [] fun hitems => ?_) (ih h.1.at_hole)
      rw [render, hlines, hitems, ← String.append_assoc, ← String.append_assoc]
      rfl
  | ifaceMember bases before name C after ih =>
      have hvalue := ih h.2.at_hole
      rw [depth, Nat.add_comm]
      exact (surrounds_value h.1 h.2).comp hvalue
  | array C ih =>
      refine hlayer ⟨"t.array(", ")", fun htext => ?_⟩ (ih h)
      rw [render, htext]
      rfl
  | tuple before C after ih =>
      have hlist : AreExpressions literal (before ++ C.fill e :: after) := h
      refine hlayer (surrounds_item .tuple hlist "t.tuple(" ")" [] fun hitems => ?_)
        (ih hlist.at_hole)
      rw [render, hitems]
      rfl
  | union before C after ih =>
      have hlist : AreExpressions literal (before ++ C.fill e :: after) := h
      refine hlayer (surrounds_item .union hlist "t.union(" ")" [] fun hitems => ?_)
        (ih hlist.at_hole)
      rw [render, hitems]
      rfl

/-! ## Literals in a context -/

/-- A text stands at one place of another, and at no other place. -/
def OccursOnce (mark text : String) : Prop :=
  ∃ before after, text = before ++ mark ++ after ∧
    ∀ start finish, text = start ++ mark ++ finish → start = before ∧ finish = after

/-- One text is another one with a mark in it replaced. -/
def Replaced (mark replacement marked text : String) : Prop :=
  ∃ before after, marked = before ++ mark ++ after ∧ text = before ++ replacement ++ after

/-- A character stands at one place between texts without it. -/
theorem occurs_once_of_not_mem {c : Char} {before after : String} (hbefore : c ∉ before.toList)
    (hafter : c ∉ after.toList) :
    OccursOnce (String.singleton c) (before ++ String.singleton c ++ after) := by
  refine ⟨before, after, rfl, fun start finish h => ?_⟩
  have hchars : start.toList ++ c :: finish.toList = before.toList ++ c :: after.toList := by
    simpa using (congrArg String.toList h).symm
  obtain ⟨hstart, -, hfinish⟩ := (List.append_cons_inj_of_notMem hbefore hafter).mp hchars.symm
  exact ⟨String.toList_inj.mp hstart.symm, String.toList_inj.mp hfinish.symm⟩

/-- A literal is written in a context as a mark on one line is, with each of its line breaks
indented once for each member value around it. So it is written as it is if and only if no member
value is around it or it is on one line. -/
theorem literal_verbatim_iff (C : Context) {mark : String} (hline : OnOneLine mark)
    (h : IsExpression (fun _ => True) (C.fill (.literal mark))) :
    ∃ marked, (C.fill (.literal mark)).render = .ok marked ∧
      (OccursOnce mark marked → ∀ text, ∃ written,
        (C.fill (.literal text)).render = .ok written ∧
        Replaced mark (indent^[C.depth] text) marked written ∧
        (Replaced mark text marked written ↔ C.depth = 0 ∨ OnOneLine text)) := by
  obtain ⟨before, after, hfill⟩ := C.render_fill h
  have hwritten (text : String) : (C.fill (.literal text)).render =
      .ok (before ++ "t.lit(" ++ indent^[C.depth] text ++ (")" ++ after)) := by
    have hstart : indent^[C.depth] "t.lit(" = "t.lit(" :=
      (Text.indent_iterate_eq_self_iff _ _).mpr (.inr (by decide))
    have hfinish : indent^[C.depth] ")" = ")" :=
      (Text.indent_iterate_eq_self_iff _ _).mpr (.inr (by decide))
    have hliteral : (Validator.literal text).render = .ok ("t.lit(" ++ text ++ ")") := rfl
    rw [hfill hliteral, Text.indent_iterate_append, Text.indent_iterate_append, hstart,
      hfinish]
    simp only [String.append_assoc]
  have hmark : indent^[C.depth] mark = mark :=
    (Text.indent_iterate_eq_self_iff _ _).mpr (.inr hline)
  refine ⟨_, hwritten mark, fun honce text => ⟨_, hwritten text, ⟨_, _, by rw [hmark], rfl⟩, ?_⟩⟩
  rw [hmark] at honce ⊢
  rw [OnOneLine, ← Text.indent_iterate_eq_self_iff]
  constructor
  · rintro ⟨start, finish, hmarked, htext⟩
    -- The mark is at one place, so the literal is there as well.
    obtain ⟨_, _, -, hplace⟩ := honce
    obtain ⟨rfl, rfl⟩ := hplace start finish hmarked
    obtain ⟨hbefore, hafter⟩ := hplace _ _ rfl
    rwa [hbefore, hafter, String.append_left_inj, String.append_right_inj] at htext
  · intro hsame
    exact ⟨_, _, rfl, by rw [hsame]⟩

/-- A hole for the value of the only member of an interface. -/
def onlyValue : Context :=
  .ifaceMember [] [] "a" .hole []

/-- The text of the interface around a literal. -/
def onlyValueText (text : String) : String :=
  "t.iface([], \x7b\n  \x22a\x22: t.lit(" ++ text ++ "),\n\x7d)"

/-- The interface is written around a mark. -/
theorem render_only_value : (onlyValue.fill (.literal "#")).render = .ok (onlyValueText "#") := by
  decide

/-- A mark that is not in the text around it stands at one place. -/
theorem occurs_once_only_value : OccursOnce "#" (onlyValueText "#") := by
  show OccursOnce (String.singleton '#')
    ("t.iface([], \x7b\n  \x22a\x22: t.lit(" ++ String.singleton '#' ++ "),\n\x7d)")
  exact occurs_once_of_not_mem (by decide) (by decide)

/-- Under a member, literals on one line are written as they are. -/
theorem literal_verbatim_iff_only_value : OnOneLine "#" ∧
    IsExpression (fun _ => True) (onlyValue.fill (.literal "#")) ∧
    OccursOnce "#" (onlyValueText "#") ∧
    ∀ text, ∃ written, (onlyValue.fill (.literal text)).render = .ok written ∧
      (Replaced "#" text (onlyValueText "#") written ↔ OnOneLine text) := by
  have hline : OnOneLine "#" := by
    unfold OnOneLine
    decide
  have hexpression : IsExpression (fun _ => True) (onlyValue.fill (.literal "#")) := by
    simp [onlyValue, Context.fill, IsExpression, AreExpressions, AreMembers]
  obtain ⟨marked, hmarked, hliteral⟩ := literal_verbatim_iff onlyValue hline hexpression
  rw [render_only_value, Except.ok.injEq] at hmarked
  subst hmarked
  refine ⟨hline, hexpression, occurs_once_only_value, fun text => ?_⟩
  obtain ⟨written, hwritten, -, hiff⟩ := hliteral occurs_once_only_value text
  exact ⟨written, hwritten, by simpa [onlyValue, Context.depth] using hiff⟩

/-- A literal on two lines is not written as it is under a member: its second line is indented. -/
theorem second_line_indented :
    (onlyValue.fill (.literal "#")).render = .ok (onlyValueText "#") ∧
    OccursOnce "#" (onlyValueText "#") ∧
    (onlyValue.fill (.literal "'a\\\nb'")).render = .ok (onlyValueText "'a\\\n  b'") ∧
    ¬ Replaced "#" "'a\\\nb'" (onlyValueText "#") (onlyValueText "'a\\\n  b'") := by
  refine ⟨render_only_value, occurs_once_only_value, by decide, ?_⟩
  rintro ⟨before, after, hmarked, htext⟩
  -- The literal is five characters longer than the mark, and the text is seven longer.
  have hlength : (onlyValueText "'a\\\n  b'").length = (onlyValueText "#").length + 7 := by decide
  have hliteral : "'a\\\nb'".length = "#".length + 5 := by decide
  rw [htext, hmarked] at hlength
  simp only [String.length_append] at hlength
  omega

end TypeSuite.Validator
