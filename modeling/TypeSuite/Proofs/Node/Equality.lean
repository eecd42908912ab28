import TypeSuite.Node.Equality

/-!
# Equality of nodes is identity

Comparing two nodes field by field says whether they are the same node.
-/

namespace TypeSuite

namespace Node

mutual
/-- Nodes that compare equal are the same. -/
theorem eq_of_same {a b : Node} (h : same a b = true) : a = b := by
  unfold same at h
  split at h
  -- The last case is that of nodes of different kinds.
  case h_22 => cases h
  all_goals simp only [Bool.and_eq_true, beq_iff_eq] at h
  case h_1 | h_2 | h_3 | h_4 | h_14 => rw [h]
  case h_5 | h_6 => rw [eq_of_same h.1.1.1, eq_of_same_option h.1.1.2, h.1.2, h.2]
  case h_7 => rw [eq_of_same h.1.1.1, eq_of_same_all h.1.1.2, eq_of_same_option h.1.2, h.2]
  case h_8 => rw [eq_of_same h.1.1, eq_of_same_all h.1.2, h.2]
  case h_9 => rw [eq_of_same_all h.1.1, eq_of_same_option h.1.2, h.2]
  case h_10 | h_12 | h_13 => rw [eq_of_same_all h.1, h.2]
  case h_11 | h_18 => rw [eq_of_same h.1, h.2]
  case h_15 => rw [eq_of_same h.1.1.1, eq_of_same_all h.1.1.2, eq_of_same_all h.1.2, h.2]
  case h_16 => rw [eq_of_same h.1.1, eq_of_same h.1.2, h.2]
  case h_17 => rw [eq_of_same h.1.1, eq_of_same_all h.1.2, h.2]
  case h_19 | h_21 => rw [h.1, h.2]
  case h_20 => rw [h.1.1, eq_of_same_all h.1.2, h.2]

/-- Lists of nodes that compare equal are the same. -/
theorem eq_of_same_all {as bs : List Node} (h : sameAll as bs = true) : as = bs := by
  unfold sameAll at h
  split at h
  case h_1 => rfl
  case h_2 =>
    rw [Bool.and_eq_true] at h
    rw [eq_of_same h.1, eq_of_same_all h.2]
  case h_3 => cases h

/-- Optional nodes that compare equal are the same. -/
theorem eq_of_same_option {a b : Option Node} (h : sameOption a b = true) : a = b := by
  unfold sameOption at h
  split at h
  case h_1 => rfl
  case h_2 => rw [eq_of_same h]
  case h_3 => cases h
end

mutual
/-- A node compares equal to itself. -/
theorem same_self (a : Node) : same a a = true := by
  cases a with
  | identifier | stringLiteral | numericLiteral | computedName | literal => simp [same]
  | keyword | unknown => simp [same]
  | parameter name type | property name type =>
      simp [same, same_self name, same_option_self type]
  | method name parameters type =>
      simp [same, same_self name, same_all_self parameters, same_option_self type]
  | reference name arguments => simp [same, same_self name, same_all_self arguments]
  | function parameters type => simp [same, same_all_self parameters, same_option_self type]
  | typeLiteral members => simp [same, same_all_self members]
  | array element => simp [same, same_self element]
  | tuple elements => simp [same, same_all_self elements]
  | union types => simp [same, same_all_self types]
  | interface name bases members =>
      simp [same, same_self name, same_all_self bases, same_all_self members]
  | «alias» name type => simp [same, same_self name, same_self type]
  | heritage expression arguments =>
      simp [same, same_self expression, same_all_self arguments]
  | parenthesized type => simp [same, same_self type]
  | sourceFile fileName statements => simp [same, same_all_self statements]

/-- A list of nodes compares equal to itself. -/
theorem same_all_self (as : List Node) : sameAll as as = true := by
  cases as with
  | nil => rfl
  | cons a rest => simp [sameAll, same_self a, same_all_self rest]

/-- An optional node compares equal to itself. -/
theorem same_option_self (a : Option Node) : sameOption a a = true := by
  cases a with
  | none => rfl
  | some a => exact same_self a
end

/-- Comparing two nodes decides whether they are the same. -/
instance : LawfulBEq Node where
  rfl := same_self _
  eq_of_beq := eq_of_same

/-- A result whose node compares equal to a node is that node. -/
theorem eq_ok_of_same {ε : Type} {x : Except ε Node} {n : Node}
    (h : x.toOption.any (· == n) = true) : x = .ok n := by
  cases x with
  | error e => cases h
  | ok m => exact congrArg Except.ok (eq_of_same h)

end Node

/-- A result whose file compares equal to a file is that file. -/
theorem SourceFile.eq_ok_of_same {ε : Type} {x : Except ε SourceFile} {f : SourceFile}
    (h : x.toOption.any (·.toNode == f.toNode) = true) : x = .ok f := by
  cases x with
  | error e => cases h
  | ok g =>
      have hnode : g.toNode = f.toNode := Node.eq_of_same h
      obtain ⟨hname, hstatements, htext⟩ := Node.sourceFile.inj hnode
      exact congrArg Except.ok (SourceFile.mk.injEq .. ▸ ⟨hname, hstatements, htext⟩)

end TypeSuite
