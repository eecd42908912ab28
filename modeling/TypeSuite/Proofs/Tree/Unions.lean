import TypeSuite.Proofs.Node.Equality
import TypeSuite.Proofs.Node.Occurrence
import TypeSuite.Proofs.Tree.Results

/-!
# Operands of unions

A union has the types of its operands, however unions are nested in it. Its operands are what is
reached through unions only: `HasOperand` says so by their positions, and `operands` lists them.
`union_flattened` says that a union is lowered to the types of the operands in this list, which
stand in source order and occur once each, and that no union is left among them. Inside of another
type a union stays a union of its own.
-/

namespace TypeSuite

namespace Tree

/-- Whether a tree is a union. -/
def isUnion (t : Tree) : Bool :=
  t.head.kind == "union_type"

/-- An operand stands at a position in a tree. A position counts the children on the way down,
comments and tokens included. Every tree on the way is a union, and each child on it carries
meaning. What is no union is its own operand. -/
inductive HasOperand : Tree → List Nat → Tree → Prop where
  | self {t : Tree} : t.isUnion = false → HasOperand t [] t
  | inside {parent c t : Tree} {i : Nat} {position : List Nat} :
      parent.isUnion = true → parent.children[i]? = some c → c.head.isItem = true →
      HasOperand c position t → HasOperand parent (i :: position) t

mutual
/-- The operands of a tree with their positions, from left to right. -/
def operands : Tree → List (List Nat × Tree)
  | .node head children =>
    if head.kind == "union_type" then operandsFrom 0 children else [([], .node head children)]

/-- The operands of children that are counted from a number on. -/
def operandsFrom (i : Nat) : List Tree → List (List Nat × Tree)
  | [] => []
  | c :: rest =>
    (if c.head.isItem then c.operands.map fun o => (i :: o.1, o.2) else []) ++
      operandsFrom (i + 1) rest
end

/-- A tree stands in another one that is no union: in parentheses, as the element of an array, among
the elements of a tuple or among the type arguments of a reference. -/
inductive Encloses : Tree → Tree → Prop where
  | parenthesized {outer inner : Tree} {rest : List Tree} :
      outer.head.kind = "parenthesized_type" → outer.items = inner :: rest → Encloses outer inner
  | array {outer inner : Tree} {rest : List Tree} :
      outer.head.kind = "array_type" → outer.items = inner :: rest → Encloses outer inner
  | tuple {outer inner : Tree} :
      outer.head.kind = "tuple_type" → inner ∈ outer.items → Encloses outer inner
  | argument {outer arguments inner : Tree} :
      outer.head.kind = "generic_type" →
      outer.children.find? (·.head.field == some "type_arguments") = some arguments →
      inner ∈ arguments.items → Encloses outer inner

/-! ## Positions -/

variable {t : Tree} {position : List Nat}

/-- The operands of children are those of the children that carry meaning, each behind the number of
its child. -/
theorem mem_operands_from_iff {i : Nat} {children : List Tree} :
    (position, t) ∈ operandsFrom i children ↔
      ∃ k c inner, position = (i + k) :: inner ∧ children[k]? = some c ∧
        c.head.isItem = true ∧ (inner, t) ∈ c.operands := by
  induction children generalizing i with
  | nil => simp [operandsFrom]
  | cons first rest ih =>
      rw [operandsFrom, List.mem_append, ih]
      constructor
      · rintro (hfirst | ⟨k, c, inner, rfl, hc, hitem, hmem⟩)
        · split at hfirst
          case isTrue hitem =>
            obtain ⟨⟨inner, _⟩, hmem, heq⟩ := List.mem_map.mp hfirst
            obtain ⟨rfl, rfl⟩ := Prod.mk.inj heq
            exact ⟨0, first, inner, rfl, rfl, hitem, hmem⟩
          case isFalse => cases hfirst
        · exact ⟨k + 1, c, inner, by rw [Nat.add_right_comm, Nat.add_assoc], hc, hitem, hmem⟩
      · rintro ⟨k, c, inner, rfl, hc, hitem, hmem⟩
        cases k with
        | zero =>
            left
            obtain rfl : first = c := Option.some.inj hc
            rw [if_pos hitem]
            exact List.mem_map.mpr ⟨_, hmem, rfl⟩
        | succ k =>
            exact .inr ⟨k, c, inner, by rw [Nat.add_right_comm, Nat.add_assoc], hc, hitem, hmem⟩

/-- The operands of a tree are all listed with their positions, and nothing else is. -/
theorem mem_operands_iff {parent : Tree} :
    (position, t) ∈ parent.operands ↔ parent.HasOperand position t := by
  induction parent using children_induction generalizing position with
  | h parent ih =>
      obtain ⟨head, children⟩ := parent
      rw [operands]
      by_cases hunion : (head.kind == "union_type") = true
      · rw [if_pos hunion, mem_operands_from_iff]
        constructor
        · rintro ⟨k, c, inner, rfl, hc, hitem, hmem⟩
          rw [Nat.zero_add]
          exact .inside hunion hc hitem ((ih c (List.mem_of_getElem? hc)).mp hmem)
        · intro h
          cases h with
          | self hother => exact absurd (hunion.symm.trans hother) Bool.noConfusion
          | @inside _ c _ i inner _ hc hitem hmem =>
              exact ⟨i, c, inner, by rw [Nat.zero_add], hc, hitem,
                (ih c (List.mem_of_getElem? hc)).mpr hmem⟩
      · rw [if_neg hunion, List.mem_singleton]
        constructor
        · intro heq
          obtain ⟨rfl, rfl⟩ := Prod.mk.inj heq
          exact .self (Bool.eq_false_iff.mpr hunion)
        · intro h
          cases h with
          | self => rfl
          | inside hother => exact absurd hother hunion

/-- The operands of children stand in order when those of each child do. -/
theorem operands_from_sorted {children : List Tree}
    (h : ∀ c ∈ children, c.operands.Pairwise fun a b => a.1 < b.1) (i : Nat) :
    (operandsFrom i children).Pairwise fun a b => a.1 < b.1 := by
  induction children generalizing i with
  | nil => exact .nil
  | cons first rest ih =>
      rw [operandsFrom]
      refine List.pairwise_append.mpr
        ⟨?_, ih (fun c hc => h c (List.mem_cons_of_mem _ hc)) (i + 1), ?_⟩
      · split
        case isTrue =>
          refine List.pairwise_map.mpr ((h first List.mem_cons_self).imp fun hlt => ?_)
          exact List.cons_lt_cons_iff.mpr (.inr ⟨rfl, hlt⟩)
        case isFalse => exact .nil
      · -- The children behind the first have larger numbers.
        rintro a ha ⟨_, _⟩ hb
        split at ha
        case isTrue =>
          obtain ⟨o, -, rfl⟩ := List.mem_map.mp ha
          obtain ⟨k, _, inner, rfl, -⟩ := mem_operands_from_iff.mp hb
          exact List.cons_lt_cons_iff.mpr (.inl (by omega))
        case isFalse => cases ha

/-- The operands of a tree stand in source order, and none of them is listed twice. -/
theorem operands_sorted (t : Tree) : t.operands.Pairwise fun a b => a.1 < b.1 := by
  induction t using children_induction with
  | h t ih =>
      obtain ⟨head, children⟩ := t
      rw [operands]
      split
      case isTrue => exact operands_from_sorted ih 0
      case isFalse => exact List.pairwise_singleton ..

/-- No operand is a union. -/
theorem HasOperand.is_union {parent : Tree} (h : parent.HasOperand position t) :
    t.isUnion = false := by
  induction h with
  | self hother => exact hother
  | inside _ _ _ _ ih => exact ih

end Tree

namespace Lowering

variable {source : ByteArray} {t : Tree} {n : Node}

/-! ## Types -/

/-- A child that carries meaning comes first among those that do, and any other is left out. -/
theorem items_read_all_cons (source : ByteArray) (first : Tree) (rest : List Tree) :
    Child.items (readAll source (first :: rest)) =
      if first.head.isItem then ⟨first.head, read source first⟩ :: Child.items (readAll source rest)
      else Child.items (readAll source rest) := by
  simp only [readAll, Child.items, List.filter_cons]

/-- What is taken from the children of a union are the types of their operands. -/
theorem union_operands_eq {children : List Tree}
    (h : ∀ c ∈ children, (read source c).operands =
      c.operands.map fun o => (read source o.2).type) (i : Nat) :
    unionOperands (readAll source children) =
      (Tree.operandsFrom i children).map fun o => (read source o.2).type := by
  induction children generalizing i with
  | nil => rfl
  | cons first rest ih =>
      have hrest := ih (fun c hc => h c (List.mem_cons_of_mem _ hc)) (i + 1)
      rw [unionOperands] at hrest ⊢
      rw [items_read_all_cons, Tree.operandsFrom, List.map_append, ← hrest]
      split
      case isTrue =>
        rw [List.flatMap_cons, List.map_map, h first List.mem_cons_self]
        rfl
      case isFalse => rfl

/-- What a tree brings into a union are the types of its operands. -/
theorem read_operands (source : ByteArray) (t : Tree) :
    (read source t).operands = t.operands.map fun o => (read source o.2).type := by
  induction t using Tree.children_induction with
  | h t ih =>
      obtain ⟨head, children⟩ := t
      rw [Tree.operands, read, readingOf]
      dsimp only
      split
      case isTrue => exact union_operands_eq ih 0
      case isFalse => rfl

/-- The type of a tree is made from its children. -/
theorem read_type (source : ByteArray) (t : Tree) :
    (read source t).type = typeOf source t.head (readAll source t.children) := by
  rw [read_eq]
  rfl

/-- What a union takes from its children are the types of its operands. -/
theorem union_operands_read_all (source : ByteArray) (h : t.isUnion = true) :
    unionOperands (readAll source t.children) =
      t.operands.map fun o => (read source o.2).type := by
  rw [← read_operands, read_eq]
  exact (if_pos h).symm

/-- A union has the types of its operands. -/
theorem type_of_union (source : ByteArray) (h : t.isUnion = true) :
    (read source t).type = (do
      let text ← textOf source t.head
      let types ← t.operands.mapM fun o => (read source o.2).type
      return .union types text) := by
  have hkind : t.head.kind = "union_type" := eq_of_beq h
  rw [read_type, typeOf, hkind, union_operands_read_all source h]
  simp

/-- What a union is lowered to is a union, whose types are those of its operands. -/
theorem type_of_union_meets (source : ByteArray) (h : t.isUnion = true) :
    (read source t).type.Meets False fun n => ∃ types text, n = .union types text ∧
      (t.operands.mapM fun o => (read source o.2).type) = .ok types := by
  rw [type_of_union source h]
  refine Lowered.meets_bind (Lowered.meets_self _) fun text _ => ?_
  refine Lowered.meets_bind (Lowered.meets_self _) fun types htypes => ?_
  exact Lowered.meets_pure ⟨types, text, rfl, htypes⟩

/-- A keyword is no union. -/
theorem kind_keyword_or (text : String) {other : Node} (h : other.kind ≠ .union) :
    (keywordOr text other).kind ≠ .union := by
  unfold keywordOr
  split
  case h_1 => exact nofun
  case h_2 => exact h

/-- A type that is no union is not lowered to one. -/
theorem type_of_other (source : ByteArray) (h : t.isUnion = false) :
    (read source t).type.Meets False (·.kind ≠ .union) := by
  have hkind : t.head.kind ≠ "union_type" := ne_of_beq_false h
  rw [read_type]
  refine Lowered.meets_bind (Lowered.meets_self _) fun text _ => ?_
  split
  case h_1 | h_2 | h_3 | h_6 | h_14 => exact Lowered.meets_pure nofun
  case h_4 =>
    refine Lowered.meets_bind (Lowered.meets_self _) fun c _ => ?_
    refine Lowered.meets_bind (Lowered.meets_self _) fun name _ => ?_
    exact Lowered.meets_bind (Lowered.meets_self _) fun arguments _ => Lowered.meets_pure nofun
  case h_5 | h_7 => exact Lowered.meets_pure (kind_keyword_or text nofun)
  case h_8 | h_9 | h_10 | h_12 =>
    exact Lowered.meets_bind (Lowered.meets_self _) fun inner _ => Lowered.meets_pure nofun
  case h_11 hunion => exact absurd hunion hkind
  case h_13 =>
    refine Lowered.meets_bind (Lowered.meets_self _) fun parameters _ => ?_
    split
    case h_1 | h_2 =>
      exact Lowered.meets_bind (Lowered.meets_self _) fun type _ => Lowered.meets_pure nofun

/-! ## Unions inside of other types -/

/-- The type that stands in another one is lowered to a field of it. -/
theorem type_of_outer (source : ByteArray) {outer inner : Tree} (h : outer.Encloses inner) :
    (read source outer).type.Meets False fun n =>
      ∃ m ∈ n.children, (read source inner).type = .ok m := by
  rw [read_type]
  refine Lowered.meets_bind (Lowered.meets_self _) fun text _ => ?_
  cases h with
  | parenthesized hkind hitems | array hkind hitems =>
      have hfirst : firstType (readAll source outer.children) = (read source inner).type := by
        rw [firstType, items_read_all, hitems]
        rfl
      simp only [hkind, hfirst]
      refine Lowered.meets_bind (Lowered.meets_self _) fun m hm => Lowered.meets_pure ?_
      exact ⟨m, List.mem_singleton_self m, hm⟩
  | tuple hkind hmem =>
      simp only [hkind, items_read_all, List.mapM_map]
      refine Lowered.meets_bind (Lowered.map_m_meets _ _) fun types htypes => ?_
      exact Lowered.meets_pure (htypes inner hmem)
  | argument hkind hfield hmem =>
      have hitems : inner ∈ outer.itemsIn "type_arguments" := by
        rwa [Tree.itemsIn, Tree.field?, hfield]
      simp only [hkind, arguments_in_read_all]
      refine Lowered.meets_bind (Lowered.meets_self _) fun c _ => ?_
      refine Lowered.meets_bind (Lowered.meets_self _) fun name _ => ?_
      refine Lowered.meets_bind (Lowered.map_m_meets _ _) fun types htypes => ?_
      obtain ⟨m, hm, htype⟩ := htypes inner hitems
      exact Lowered.meets_pure ⟨m, List.mem_cons_of_mem _ hm, htype⟩

end Lowering

namespace Tree

open Lowering (read textOf)

/-- What encloses a type is no union. -/
theorem Encloses.is_union {outer inner : Tree} (h : outer.Encloses inner) :
    outer.isUnion = false := by
  cases h with
  | parenthesized hkind | array hkind | tuple hkind | argument hkind => rw [isUnion, hkind]; rfl

/-- A union is lowered to the types of its operands. These are what is reached through unions only,
by way of children that carry meaning; they are listed in source order, and each of them once. None
of the types is a union, and another union whose operands are lowered to the same has the same
types, however either of them is nested. In parentheses, in an array, in a tuple or among type
arguments, a union is lowered to a union of its own, in a field of a node that is none. -/
theorem union_flattened (source : ByteArray) {u : Tree} (hu : u.isUnion = true) :
    (∀ position t, (position, t) ∈ u.operands ↔ u.HasOperand position t) ∧
    (u.operands.Pairwise fun a b => a.1 < b.1) ∧
    ((read source u).type = do
      let text ← textOf source u.head
      let types ← u.operands.mapM fun o => (read source o.2).type
      return .union types text) ∧
    (∀ types text, (read source u).type = .ok (.union types text) →
      (∀ n ∈ types, n.kind ≠ .union) ∧
      ∀ source' v types' text', v.isUnion = true →
        (v.operands.map fun o => (read source' o.2).type) =
          (u.operands.map fun o => (read source o.2).type) →
        (read source' v).type = .ok (.union types' text') → types' = types) ∧
    (∀ outer n, outer.Encloses u → (read source outer).type = .ok n →
      n.kind ≠ .union ∧
        ∃ types text, (read source u).type = .ok (.union types text) ∧
          .union types text ∈ n.children) := by
  refine ⟨fun _ _ => mem_operands_iff, u.operands_sorted, Lowering.type_of_union source hu, ?_, ?_⟩
  · intro types text htype
    obtain ⟨_, _, heq, htypes⟩ := (Lowering.type_of_union_meets source hu).holds htype
    obtain ⟨rfl, rfl⟩ := Node.union.inj heq
    constructor
    · have hothers : ∀ o ∈ u.operands, (read source o.2).type.Meets False (·.kind ≠ .union) :=
        fun o ho => Lowering.type_of_other source (mem_operands_iff.mp ho).is_union
      exact (Lowered.meets_map_m hothers).holds htypes
    · intro source' v types' text' hv halike htype'
      obtain ⟨_, _, heq', htypes'⟩ := (Lowering.type_of_union_meets source' hv).holds htype'
      obtain ⟨rfl, rfl⟩ := Node.union.inj heq'
      have hsame := congrArg (List.mapM id) halike
      rw [List.mapM_map, List.mapM_map] at hsame
      exact Except.ok.inj (htypes'.symm.trans (hsame.trans htypes))
  · intro outer n hencloses htype
    obtain ⟨m, hm, hinner⟩ := (Lowering.type_of_outer source hencloses).holds htype
    obtain ⟨types, text, rfl, -⟩ := (Lowering.type_of_union_meets source hu).holds hinner
    exact ⟨(Lowering.type_of_other source hencloses.is_union).holds htype, types, text, hinner, hm⟩

/-- A reference to a type of one letter. -/
def letter (start : Nat) : Tree :=
  .part "type_identifier" start (start + 1) none []

/-- A union in parentheses. -/
def group : Tree :=
  .part "parenthesized_type" 4 11 none
    [.token "(" 4, .part "union_type" 5 10 none [letter 5, .token "|" 7, letter 9], .token ")" 10]

/-- A comment between two operands. -/
def remark : Tree :=
  .part "comment" 12 16 none []

/-- A union of three operands, the first two of which are a union inside. -/
def leftUnion : Tree :=
  .part "union_type" 0 20 none
    [.part "union_type" 0 11 none [letter 0, .token "|" 2, group], remark, .token "|" 17, letter 19]

/-- The same union with the last two operands as a union inside. -/
def rightUnion : Tree :=
  .part "union_type" 0 20 none
    [letter 0, .token "|" 2, .part "union_type" 4 20 none [group, remark, .token "|" 17, letter 19]]

/-- The source of both. -/
def unionSource : String :=
  "A | (B | C) /**/ | A"

/-- The types of both. -/
def unionTypes : List Node :=
  [.reference (.identifier "A") [] "A",
   .parenthesized (.union [.reference (.identifier "B") [] "B", .reference (.identifier "C") [] "C"]
     "B | C") "(B | C)",
   .reference (.identifier "A") [] "A"]

/-- Both unions have the same three types. The repeated one is there twice, and the union in
parentheses is not among them. -/
theorem union_flattened_nested :
    leftUnion.isUnion = true ∧ rightUnion.isUnion = true ∧
    leftUnion.operands.map (·.1) = [[0, 0], [0, 2], [3]] ∧
    rightUnion.operands.map (·.1) = [[0], [2, 0], [2, 3]] ∧
    (read unionSource.toUTF8 leftUnion).type = .ok (.union unionTypes unionSource) ∧
    (∀ n ∈ unionTypes, n.kind ≠ .union) ∧
    ∃ types text, (read unionSource.toUTF8 rightUnion).type = .ok (.union types text) ∧
      types = unionTypes := by
  have hleft : (read unionSource.toUTF8 leftUnion).type = .ok (.union unionTypes unionSource) :=
    Node.eq_ok_of_same (by decide +kernel)
  have hright : (read unionSource.toUTF8 rightUnion).type = .ok (.union unionTypes unionSource) :=
    Node.eq_ok_of_same (by decide +kernel)
  obtain ⟨-, -, -, hflat, -⟩ := union_flattened unionSource.toUTF8 (u := leftUnion) rfl
  obtain ⟨hothers, hsame⟩ := hflat _ _ hleft
  refine ⟨rfl, rfl, rfl, rfl, hleft, hothers, _, _, hright, ?_⟩
  exact hsame _ rightUnion _ _ rfl rfl hright

end Tree

end TypeSuite
