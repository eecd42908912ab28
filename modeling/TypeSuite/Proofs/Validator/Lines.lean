import TypeSuite.Proofs.Validator.Context

/-!
# Lines of a written expression

`render` indents what is in an interface each time it writes the interface, and `layout` knows the
depth of every line from the start. `indent_render` says that both write the same text at every
depth. A line of it ends behind the opening brace of an interface or behind the comma of a member,
and an expression is laid out at the depth that counts the member values around it, wherever it
stands.
-/

namespace TypeSuite.Validator

open Text (indent margin quote)

/-! ## Line breaks of joined texts -/

/-- In front of each line break of a text there is one of some endings. -/
def Breaks (ends : String → Prop) (text : String) : Prop :=
  ∀ before after, text.toList = before ++ '\n' :: after →
    ∃ ending, ends ending ∧ ending.toList <:+ before

/-- A line break of two joined lists is one of the second or of the first. -/
theorem break_of_append {first second before after : List Char}
    (h : first ++ second = before ++ '\n' :: after) :
    (∃ middle, before = first ++ middle ∧ second = middle ++ '\n' :: after) ∨
      ∃ rest, first = before ++ '\n' :: rest := by
  rcases List.append_eq_append_iff.mp h with ⟨middle, hbefore, hsecond⟩ | ⟨middle, hfirst, hbreak⟩
  · exact .inl ⟨middle, hbefore, hsecond⟩
  · cases middle with
    | nil => exact .inl ⟨[], by simpa using hfirst.symm, by simpa using hbreak.symm⟩
    | cons c middle =>
        obtain ⟨rfl, -⟩ := List.cons.inj hbreak
        exact .inr ⟨middle, hfirst⟩

namespace Breaks

variable {ends more : String → Prop} {first second text : String}

/-- A text on one line breaks nowhere. -/
theorem of_single_line (h : '\n' ∉ text.toList) : Breaks ends text := by
  intro before after heq
  exact absurd (by simp [heq]) h

/-- With more endings, a text breaks as well. -/
theorem mono (h : Breaks ends text) (himp : ∀ ending, ends ending → more ending) :
    Breaks more text := by
  intro before after heq
  obtain ⟨ending, hends, hsuffix⟩ := h before after heq
  exact ⟨ending, himp ending hends, hsuffix⟩

/-- A joined text breaks where its parts break. -/
theorem append (hfirst : Breaks ends first) (hsecond : Breaks ends second) :
    Breaks ends (first ++ second) := by
  intro before after heq
  rw [String.toList_append] at heq
  rcases break_of_append heq with ⟨middle, rfl, hbreak⟩ | ⟨rest, hbreak⟩
  · obtain ⟨ending, hends, hsuffix⟩ := hsecond middle after hbreak
    exact ⟨ending, hends, hsuffix.trans (List.suffix_append _ _)⟩
  · exact hfirst before rest hbreak

/-- Between texts on one line, a text breaks where it does alone. -/
theorem between {start finish : String} (hstart : '\n' ∉ start.toList) (h : Breaks ends text)
    (hfinish : '\n' ∉ finish.toList) : Breaks ends (start ++ text ++ finish) :=
  ((of_single_line hstart).append h).append (of_single_line hfinish)

/-- A text may break behind one of the endings. -/
theorem line {ending : String} (h : Breaks ends text) (hends : ends ending)
    (hsuffix : ending.toList <:+ text.toList) : Breaks ends (text ++ "\n") := by
  intro before after heq
  rw [String.toList_append] at heq
  rcases break_of_append heq with ⟨middle, rfl, hbreak⟩ | ⟨rest, hbreak⟩
  · cases middle with
    | nil => exact ⟨ending, hends, by rwa [List.append_nil]⟩
    | cons c middle => simp at hbreak
  · exact h before rest hbreak

/-- Separated items break where the items break. -/
theorem comma_separated {items : List String} (h : ∀ item ∈ items, Breaks ends item) :
    Breaks ends (commaSeparated items) := by
  induction items with
  | nil => exact of_single_line (by decide)
  | cons item items ih =>
      obtain ⟨hitem, hrest⟩ := List.forall_mem_cons.mp h
      by_cases hnil : items = []
      · simpa [commaSeparated, hnil] using hitem
      · rw [commaSeparated, String.intercalate_cons_of_ne_nil hnil]
        exact (hitem.append (of_single_line (by decide))).append (ih hrest)

end Breaks

/-! ## The lines of an expression -/

/-- How a line of an expression ends that starts on a line of the given depth: with the opening of
an interface in it, or with a member of one, which starts the line. -/
inductive LineEnd (depth : Nat) (e : Validator) : String → Prop where
  | opening (C : Context) (bases members : List Validator) : e = C.fill (.iface bases members) →
      LineEnd depth e
        ("t.iface([" ++ commaSeparated (layoutAll (depth + C.depth) bases) ++ "], \x7b")
  | member (C : Context) (bases before after : List Validator) (name : String)
      (value : Validator) : e = C.fill (.iface bases (before ++ .member name value :: after)) →
      LineEnd depth e (margin (depth + C.depth + 1) ++ quote name ++ ": " ++
        layout (depth + C.depth + 1) value ++ ",")

/-- A line of an expression in a context is a line of the filled context. -/
theorem LineEnd.fill {depth : Nat} {e : Validator} {ending : String} (C : Context)
    (h : LineEnd (depth + C.depth) e ending) : LineEnd depth (C.fill e) ending := by
  cases h with
  | opening D bases members heq =>
      have hfill : C.fill e = (C.comp D).fill (.iface bases members) := by
        rw [Context.fill_comp, heq]
      rw [Nat.add_assoc, ← Context.depth_comp]
      exact .opening (C.comp D) bases members hfill
  | member D bases before after name value heq =>
      have hfill : C.fill e =
          (C.comp D).fill (.iface bases (before ++ .member name value :: after)) := by
        rw [Context.fill_comp, heq]
      rw [Nat.add_assoc depth, ← Context.depth_comp]
      exact .member (C.comp D) bases before after name value hfill

/-- Where the lines of an expression in a context end, the lines of the filled context do. -/
theorem Breaks.fill {depth : Nat} {e : Validator} {text : String} (C : Context)
    (h : Breaks (LineEnd (depth + C.depth) e) text) : Breaks (LineEnd depth (C.fill e)) text :=
  h.mono fun _ => LineEnd.fill C

/-- The expressions of a list are laid out one by one. -/
theorem layout_all_eq_map (depth : Nat) (es : List Validator) :
    layoutAll depth es = es.map (layout depth) := by
  induction es with
  | nil => rfl
  | cons e es ih => rw [layoutAll, ih, List.map_cons]

/-- The items of a list break where its expressions do, as parts of an expression that has a hole
for each of them. -/
theorem Breaks.items {depth : Nat} {es : List Validator} {e : Validator}
    (place : List Validator → List Validator → Context)
    (hplace : ∀ before inner after, es = before ++ inner :: after →
      e = (place before after).fill inner ∧ (place before after).depth = 0)
    (h : ∀ inner ∈ es, Breaks (LineEnd depth inner) (layout depth inner)) :
    ∀ item ∈ layoutAll depth es, Breaks (LineEnd depth e) item := by
  intro item hitem
  rw [layout_all_eq_map] at hitem
  obtain ⟨inner, hinner, rfl⟩ := List.mem_map.mp hitem
  obtain ⟨before, after, hlist⟩ := List.append_of_mem hinner
  obtain ⟨rfl, hdepth⟩ := hplace before inner after hlist
  have hbreaks := h inner hinner
  exact Breaks.fill _ (by rwa [hdepth])

/-- The lines of members end where their values break and behind their commas. -/
theorem Breaks.layout_members {ends : String → Prop} {depth : Nat} {members : List Validator}
    (h : ∀ name value, .member name value ∈ members → Breaks ends (layout (depth + 1) value) ∧
      ends (margin (depth + 1) ++ quote name ++ ": " ++ layout (depth + 1) value ++ ",")) :
    Breaks ends (layoutMembers depth members) := by
  have hnone : Breaks ends "" := of_single_line (by decide)
  induction members with
  | nil => exact hnone
  | cons m members ih =>
      cases m with
      | member name value =>
          obtain ⟨hvalue, hends⟩ := h name value List.mem_cons_self
          have hrest := ih fun other inner hmem => h other inner (List.mem_cons_of_mem _ hmem)
          have hstart : '\n' ∉ (margin (depth + 1) ++ quote name ++ ": ").toList := by
            simp [Text.line_break_not_mem_margin, Text.line_break_not_mem_quote]
          have hline := (hvalue.between hstart (by decide)).line hends (List.suffix_refl _)
          have htext : layoutMembers depth (.member name value :: members) =
              margin (depth + 1) ++ quote name ++ ": " ++ layout (depth + 1) value ++ "," ++ "\n" ++
                layoutMembers depth members := by
            have hend : ",\n" = "," ++ "\n" := by decide
            rw [layoutMembers, hend, ← String.append_assoc]
          rw [htext]
          exact hline.append hrest
      | _ => exact hnone

mutual
/-- An expression breaks behind the opening braces of its interfaces and behind their members. -/
theorem layout_breaks (depth : Nat) {e : Validator} (h : IsExpression OnOneLine e) :
    Breaks (LineEnd depth e) (layout depth e) := by
  cases e with
  | ref name => exact .of_single_line (Text.line_break_not_mem_quote name)
  | opt inner =>
      have hinner : IsExpression OnOneLine inner := h
      exact .between (by decide) ((layout_breaks depth hinner).fill (.opt .hole)) (by decide)
  | param name type optional =>
      have htype : IsExpression OnOneLine type := h
      have hstart : '\n' ∉ ("t.param(" ++ quote name ++ ", ").toList := by
        simp [Text.line_break_not_mem_quote]
      have hmark : '\n' ∉ (if optional then ", true" else "").toList := by
        cases optional <;> decide
      have hread := (layout_breaks depth htype).fill (.param name .hole optional)
      exact (hread.between hstart hmark).append (.of_single_line (by decide))
  | func result params =>
      have hparams := Breaks.items (e := .func result params)
        (fun before after => .funcParam result before .hole after)
        (by rintro _ _ _ rfl; exact ⟨rfl, rfl⟩) (layout_all_breaks depth h.2)
      have hresult := (layout_breaks depth h.1).fill (.funcResult .hole params)
      have hitems := List.forall_mem_cons.mpr ⟨hresult, hparams⟩
      exact .between (by decide) (.comma_separated hitems) (by decide)
  | iface bases members =>
      have hbases := Breaks.items (e := .iface bases members)
        (fun before after => .ifaceBase before .hole after members)
        (by rintro _ _ _ rfl; exact ⟨rfl, rfl⟩) (layout_all_breaks depth h.1)
      have hopen := (Breaks.between (by decide : '\n' ∉ "t.iface([".toList)
        (.comma_separated hbases) (by decide : '\n' ∉ "], \x7b".toList)).line
        (.opening .hole bases members rfl) (List.suffix_refl _)
      have hmembers : Breaks (LineEnd depth (.iface bases members))
          (layoutMembers depth members) := by
        apply Breaks.layout_members
        intro name value hmem
        have hvalue := layout_values_break (depth + 1) h.2 name value hmem
        obtain ⟨before, after, rfl⟩ := List.append_of_mem hmem
        exact ⟨hvalue.fill (.ifaceMember bases before name .hole after),
          .member .hole bases before after name value rfl⟩
      have hclose : '\n' ∉ (margin depth ++ "\x7d)").toList := by
        simp [Text.line_break_not_mem_margin]
      have htext : layout depth (.iface bases members) =
          "t.iface([" ++ commaSeparated (layoutAll depth bases) ++ "], \x7b" ++ "\n" ++
            layoutMembers depth members ++ (margin depth ++ "\x7d)") := by
        have hbrace : "], \x7b\n" = "], \x7b" ++ "\n" := by decide
        simp only [layout, hbrace, String.append_assoc]
      rw [htext]
      exact (hopen.append hmembers).append (.of_single_line hclose)
  | array element =>
      have helement : IsExpression OnOneLine element := h
      exact .between (by decide) ((layout_breaks depth helement).fill (.array .hole)) (by decide)
  | tuple elements =>
      have hlist : AreExpressions OnOneLine elements := h
      have hitems := Breaks.items (e := .tuple elements)
        (fun before after => .tuple before .hole after)
        (by rintro _ _ _ rfl; exact ⟨rfl, rfl⟩) (layout_all_breaks depth hlist)
      exact .between (by decide) (.comma_separated hitems) (by decide)
  | union members =>
      have hlist : AreExpressions OnOneLine members := h
      have hitems := Breaks.items (e := .union members)
        (fun before after => .union before .hole after)
        (by rintro _ _ _ rfl; exact ⟨rfl, rfl⟩) (layout_all_breaks depth hlist)
      exact .between (by decide) (.comma_separated hitems) (by decide)
  | literal text => exact .between (by decide) (.of_single_line h) (by decide)
  | member | declaration | module | plain => exact h.elim

/-- The expressions of a list break behind the opening braces of their interfaces and behind their
members. -/
theorem layout_all_breaks (depth : Nat) {es : List Validator} (h : AreExpressions OnOneLine es) :
    ∀ e ∈ es, Breaks (LineEnd depth e) (layout depth e) := by
  cases es with
  | nil => simp
  | cons e es =>
      exact List.forall_mem_cons.mpr ⟨layout_breaks depth h.1, layout_all_breaks depth h.2⟩

/-- The values of members break behind the opening braces of their interfaces and behind their
members. -/
theorem layout_values_break (depth : Nat) {members : List Validator}
    (h : AreMembers OnOneLine members) :
    ∀ name value, .member name value ∈ members →
      Breaks (LineEnd depth value) (layout depth value) := by
  cases members with
  | nil => simp
  | cons m members =>
      cases m with
      | member other inner =>
          intro name value hmem
          rcases List.mem_cons.mp hmem with heq | hmem
          · cases heq
            exact layout_breaks depth h.1
          · exact layout_values_break depth h.2 name value hmem
      | _ => exact h.elim
end

/-! ## Written expressions -/

/-- However often it is indented, the text of an expression is what is laid out at that depth. -/
theorem indent_iterate_layout (depth : Nat) {e : Validator} (h : IsExpression OnOneLine e) :
    indent^[depth] (layout 0 e) = layout depth e := by
  induction depth with
  | zero => rfl
  | succ depth ih => rw [Function.iterate_succ_apply', ih, indent_layout depth h]

/-- Indenting a written expression some times gives the expression as it is laid out at that depth,
so without indenting it is laid out at depth zero. Each of its lines ends behind the opening brace
of an interface in it or behind the comma of a member. In a context, an expression is laid out at
the depth that counts the member values around it, and what is written around it does not depend on
it. -/
theorem indent_render {e : Validator} (h : IsExpression OnOneLine e) :
    ∃ text, e.render = .ok text ∧ (∀ depth, indent^[depth] text = layout depth e) ∧
      Breaks (LineEnd 0 e) text ∧
      ∀ (C : Context) (inner : Validator), e = C.fill inner → ∃ before after,
        ∀ other, IsExpression OnOneLine other →
          (C.fill other).render = .ok (before ++ layout C.depth other ++ after) := by
  refine ⟨layout 0 e, render_layout h, fun depth => indent_iterate_layout depth h,
    layout_breaks 0 h, ?_⟩
  rintro C inner rfl
  obtain ⟨before, after, hfill⟩ := C.render_fill h
  refine ⟨before, after, fun other hother => ?_⟩
  rw [hfill (render_layout hother), indent_iterate_layout _ hother]

/-- A hole in a tuple below a parameter of a union, under two members of interfaces, next to a base
that is an interface. -/
def nestedHole : Context :=
  .ifaceMember [.iface [] [.member "b" (.ref "x")]] [] "a"
    (.union [] (.funcParam (.ref "r") [] (.param "p"
      (.ifaceMember [] [] "c" (.tuple [] .hole [.literal "1"]) []) true) []) []) []

/-- Interfaces at several places are indented by the members around them. -/
theorem indent_render_nested : IsExpression OnOneLine (nestedHole.fill (.iface [] [])) ∧
    ∃ text, (nestedHole.fill (.iface [] [])).render = .ok text ∧
      (∀ depth, indent^[depth] text = layout depth (nestedHole.fill (.iface [] []))) ∧
      Breaks (LineEnd 0 (nestedHole.fill (.iface [] []))) text ∧
      (∃ before after, ∀ other, IsExpression OnOneLine other →
        (nestedHole.fill other).render = .ok (before ++ layout 2 other ++ after)) ∧
      text = "t.iface([t.iface([], \x7b\n  \x22b\x22: \x22x\x22,\n\x7d)], \x7b\n" ++
        "  \x22a\x22: t.union(t.func(\x22r\x22, t.param(\x22p\x22, t.iface([], \x7b\n" ++
        "    \x22c\x22: t.tuple(t.iface([], \x7b\n    \x7d), t.lit(1)),\n" ++
        "  \x7d), true))),\n\x7d)" := by
  have hexpression : IsExpression OnOneLine (nestedHole.fill (.iface [] [])) := by
    simp [nestedHole, Context.fill, IsExpression, AreExpressions, AreMembers, OnOneLine]
  obtain ⟨text, hrender, hindent, hbreaks, hplaces⟩ := indent_render hexpression
  have hlayout : text = layout 0 (nestedHole.fill (.iface [] [])) := hindent 0
  refine ⟨hexpression, text, hrender, hindent, hbreaks, hplaces nestedHole _ rfl, ?_⟩
  rw [hlayout]
  decide +kernel

end TypeSuite.Validator
