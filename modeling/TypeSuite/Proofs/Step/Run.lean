/-!
# Runs of steps with failures

A step that may fail and keeps its state when it does is run on a state. The lemmas take a run of
two steps, one after the other, apart into the runs of both, and the traversal of a list by steps
that cannot fail into the steps for its elements. A translation of failures leaves the values.
-/

namespace TypeSuite.Step

variable {ε s α β : Type}

/-- A translation of errors gives a value if and only if the value was there before it. -/
theorem map_error_eq_ok_iff {δ : Type} {x : Except ε α} {f : ε → δ} {a : α} :
    x.mapError f = .ok a ↔ x = .ok a := by
  cases x with
  | ok b =>
      constructor
      · exact fun h => congrArg Except.ok (Except.ok.inj h)
      · exact fun h => congrArg Except.ok (Except.ok.inj h)
  | error e =>
      constructor
      · intro h
        cases h
      · intro h
        cases h

/-- A finished value changes nothing. -/
theorem run_pure (a : α) (p : s) : (pure a : ExceptT ε (StateM s) α).run p = (.ok a, p) :=
  rfl

/-- A failure changes nothing. -/
theorem run_throw (e : ε) (p : s) : (throw e : ExceptT ε (StateM s) α).run p = (.error e, p) :=
  rfl

/-- After a step that succeeds, the next one runs on its state. -/
theorem run_bind_of_ok {x : ExceptT ε (StateM s) α} {f : α → ExceptT ε (StateM s) β} {p q : s}
    {a : α} (h : x.run p = (.ok a, q)) : (x >>= f).run p = (f a).run q := by
  simp only [ExceptT.run, bind, ExceptT.bind, ExceptT.mk, StateT.bind] at h ⊢
  rw [h]
  rfl

/-- After a step that fails, nothing runs. -/
theorem run_bind_of_error {x : ExceptT ε (StateM s) α} {f : α → ExceptT ε (StateM s) β} {p q : s}
    {e : ε} (h : x.run p = (.error e, q)) : (x >>= f).run p = (.error e, q) := by
  simp only [ExceptT.run, bind, ExceptT.bind, ExceptT.mk, StateT.bind] at h ⊢
  rw [h]
  rfl

/-- Two steps succeed one after the other. -/
theorem run_bind_ok {x : ExceptT ε (StateM s) α} {f : α → ExceptT ε (StateM s) β} {p r : s} {b : β}
    (h : (x >>= f).run p = (.ok b, r)) :
    ∃ a q, x.run p = (.ok a, q) ∧ (f a).run q = (.ok b, r) := by
  cases hx : x.run p with
  | mk outcome q =>
      cases outcome with
      | ok a => exact ⟨a, q, rfl, run_bind_of_ok hx ▸ h⟩
      | error e =>
          rw [run_bind_of_error hx] at h
          cases h

/-! ## Traversals without failures -/

variable {f : α → StateM s β}

/-- A traversal takes the step for the first element and goes on from its state. -/
theorem run_map_m_cons (a : α) (rest : List α) (p : s) :
    ((a :: rest).mapM f).run p =
      (((f a).run p).1 :: ((rest.mapM f).run ((f a).run p).2).1,
        ((rest.mapM f).run ((f a).run p).2).2) := by
  rw [List.mapM_cons]
  rfl

/-- A traversal of two lists goes over the second one from the state behind the first. -/
theorem run_map_m_append (as bs : List α) (p : s) :
    ((as ++ bs).mapM f).run p =
      (((as.mapM f).run p).1 ++ ((bs.mapM f).run ((as.mapM f).run p).2).1,
        ((bs.mapM f).run ((as.mapM f).run p).2).2) := by
  rw [List.mapM_append]
  rfl

/-- A traversal gives a value for each element. -/
theorem length_map_m (as : List α) (p : s) : ((as.mapM f).run p).1.length = as.length := by
  induction as generalizing p with
  | nil => rfl
  | cons a rest ih => rw [run_map_m_cons, List.length_cons, List.length_cons, ih]

/-- A traversal gives for an element what the step for it gives behind those before it. -/
theorem run_map_m_at {as : List α} {i : Nat} {a : α} (h : as[i]? = some a) (p : s) :
    ((as.mapM f).run p).1[i]? = some ((f a).run (((as.take i).mapM f).run p).2).1 := by
  obtain ⟨hi, rfl⟩ := List.getElem?_eq_some_iff.mp h
  have hsplit : as = as.take i ++ as[i] :: as.drop (i + 1) := by
    rw [List.getElem_cons_drop, List.take_append_drop]
  have hlength : (((as.take i).mapM f).run p).1.length = i := by
    rw [length_map_m, List.length_take]
    omega
  have hrun : ((as.mapM f).run p).1 = (((as.take i).mapM f).run p).1 ++
      (((as[i] :: as.drop (i + 1)).mapM f).run (((as.take i).mapM f).run p).2).1 := calc
    _ = (((as.take i ++ as[i] :: as.drop (i + 1)).mapM f).run p).1 := by rw [← hsplit]
    _ = _ := by rw [run_map_m_append]
  rw [hrun, List.getElem?_append_right (by omega), hlength, Nat.sub_self, run_map_m_cons]
  rfl

end TypeSuite.Step
