import Mathlib.Data.Finset.Dedup
import TypeSuite.Compile.Exports
import TypeSuite.Proofs.Step.Run

/-!
# Calls on the exports of a file

The exports of a file are built by calls that add declarations, and manifests of them are taken in
between. `calls_collected` says what any sequence of calls gives: the exports are the declarations
that were added, a call that is refused leaves no trace, and a manifest holds what was added before
it was taken.
-/

namespace TypeSuite.Exports

/-- A call on the exports of a file. -/
inductive Call where
  | add (d : Declaration)
  | finalize

/-- What a call gives. -/
inductive Answer where
  | added (d : Declaration)
  | refused (e : CompileError)
  | manifest (m : Manifest)

/-- The declaration that a call has added. -/
def Answer.added? : Answer → Option Declaration
  | .added d => some d
  | _ => none

/-- The declarations that calls have added, in order. -/
def accepted (answers : List Answer) : List Declaration :=
  answers.filterMap Answer.added?

/-- A call on exports. -/
def call : Call → StateM Exports Answer
  | .add d => fun exports =>
    match exports.add d with
    | .ok after => (.added d, after)
    | .error e => (.refused e, exports)
  | .finalize => fun exports => (.manifest exports.manifest, exports)

/-- The answers to calls on the exports of a file in which nothing is declared yet, and the exports
behind them. -/
def history (calls : List Call) : List Answer × Exports :=
  (calls.mapM call).run .empty

/-! ## Single calls -/

/-- The names that are seen are those of the entries. -/
theorem to_finset_seen (exports : Exports) : exports.seen.toFinset = exports.names.toFinset := by
  ext name
  rw [List.mem_toFinset, List.mem_toFinset]
  exact exports.covered name

/-- A declaration whose name is taken is refused, and nothing is changed. -/
theorem run_add_of_mem {exports : Exports} {d : Declaration} (h : d.name ∈ exports.names) :
    (call (.add d)).run exports = (.refused (.duplicateExport d.name), exports) := by
  simp only [call, StateT.run, add_of_mem h]

/-- A declaration whose name is not taken is added behind the others. -/
theorem run_add_of_not_mem {exports : Exports} {d : Declaration} (h : d.name ∉ exports.names) :
    ∃ after, (call (.add d)).run exports = (.added d, after) ∧
      after.entries = exports.entries ++ [d] := by
  obtain ⟨after, hadd, hentries⟩ := add_of_not_mem h
  refine ⟨after, ?_, hentries⟩
  simp only [call, StateT.run, hadd]

/-- A manifest is taken without a change. -/
theorem run_finalize (exports : Exports) :
    (call .finalize).run exports = (.manifest exports.manifest, exports) :=
  rfl

/-- A call adds to the entries what its answer says. -/
theorem run_call_entries (c : Call) (exports : Exports) :
    ((call c).run exports).2.entries =
      exports.entries ++ ((call c).run exports).1.added?.toList := by
  cases c with
  | add d =>
      by_cases h : d.name ∈ exports.names
      · rw [run_add_of_mem h]
        simp [Answer.added?]
      · obtain ⟨after, hrun, hentries⟩ := run_add_of_not_mem h
        rw [hrun]
        simpa [Answer.added?] using hentries
  | finalize =>
      rw [run_finalize]
      simp [Answer.added?]

/-- A manifest has an entry of each name in it. -/
theorem contains_iff {m : Manifest} {name : String} :
    m.contains name = true ↔ ∃ d ∈ m.entries, d.name = name := by
  simp [Manifest.contains]

/-! ## Sequences of calls -/

/-- Calls add to the entries what their answers say. -/
theorem run_calls_entries (calls : List Call) (exports : Exports) :
    ((calls.mapM call).run exports).2.entries =
      exports.entries ++ accepted ((calls.mapM call).run exports).1 := by
  induction calls generalizing exports with
  | nil => exact (List.append_nil _).symm
  | cons c rest ih =>
      rw [Step.run_map_m_cons, ih, run_call_entries, List.append_assoc]
      cases hadded : ((call c).run exports).1.added? <;> simp [accepted, hadded]

/-- The exports behind some calls are the declarations that were added. -/
theorem history_entries (calls : List Call) :
    (history calls).2.entries = accepted (history calls).1 :=
  run_calls_entries calls .empty

/-- What calls give, from what those before one of them give. -/
theorem history_split {calls : List Call} {i : Nat} {c : Call} (h : calls[i]? = some c) :
    let before := history (calls.take i)
    let after := ((calls.drop (i + 1)).mapM call).run ((call c).run before.2).2
    before.1.length = i ∧
      history calls = (before.1 ++ ((call c).run before.2).1 :: after.1, after.2) := by
  obtain ⟨hi, hget⟩ := List.getElem?_eq_some_iff.mp h
  have hsplit : calls = calls.take i ++ c :: calls.drop (i + 1) := by
    rw [← hget, List.getElem_cons_drop, List.take_append_drop]
  constructor
  · rw [history, Step.length_map_m, List.length_take]
    omega
  · calc
      history calls = history (calls.take i ++ c :: calls.drop (i + 1)) := by rw [← hsplit]
      _ = _ := by
        unfold history
        rw [Step.run_map_m_append, Step.run_map_m_cons]

/-- The answer to a call is the one it gives behind the calls before it, which have the answers
before it. -/
theorem answer_at {calls : List Call} {i : Nat} {c : Call} (h : calls[i]? = some c) :
    (history calls).1[i]? = some ((call c).run (history (calls.take i)).2).1 ∧
      (history calls).1.take i = (history (calls.take i)).1 := by
  obtain ⟨hlength, hsplit⟩ := history_split h
  rw [hsplit]
  constructor
  · rw [List.getElem?_append_right (by omega), hlength]
    simp
  · simp [hlength]

/-- The names behind some calls are those of the declarations that were added. -/
theorem mem_names_iff (calls : List Call) (name : String) :
    name ∈ (history calls).2.names ↔ ∃ d ∈ accepted (history calls).1, d.name = name := by
  rw [names, history_entries, List.mem_map]

/-- A call that changes nothing can be left out: the other calls have the same answers, and the
exports behind them are the same. -/
theorem history_erase {calls : List Call} {i : Nat} {c : Call} (h : calls[i]? = some c)
    (hsame : ((call c).run (history (calls.take i)).2).2 = (history (calls.take i)).2) :
    history (calls.eraseIdx i) = ((history calls).1.eraseIdx i, (history calls).2) := by
  obtain ⟨hlength, hsplit⟩ := history_split h
  rw [hsame] at hsplit
  have herase : history (calls.eraseIdx i) =
      ((history (calls.take i)).1 ++
          (((calls.drop (i + 1)).mapM call).run (history (calls.take i)).2).1,
        (((calls.drop (i + 1)).mapM call).run (history (calls.take i)).2).2) := by
    rw [List.eraseIdx_eq_take_drop_succ]
    unfold history
    rw [Step.run_map_m_append]
  rw [herase, hsplit, List.eraseIdx_append_of_length_le (by omega), hlength, Nat.sub_self,
    List.eraseIdx_cons_zero]

/-- Calls that follow leave the answers as they are. -/
theorem history_prefix (calls more : List Call) :
    (history calls).1 <+: (history (calls ++ more)).1 := by
  unfold history
  rw [Step.run_map_m_append]
  exact List.prefix_append _ _

/-- A manifest holds the declarations that were added before it was taken. -/
theorem manifest_at {calls : List Call} {i : Nat} {m : Manifest}
    (h : (history calls).1[i]? = some (.manifest m)) :
    m.entries = accepted ((history calls).1.take i) := by
  cases hcall : calls[i]? with
  | none =>
      have hlength : (history calls).1.length = calls.length := by
        rw [history, Step.length_map_m]
      rw [List.getElem?_eq_none_iff] at hcall
      rw [List.getElem?_eq_none (by omega)] at h
      cases h
  | some c =>
      obtain ⟨hanswer, htake⟩ := answer_at hcall
      rw [hanswer, Option.some.injEq] at h
      rw [htake]
      cases c with
      | add d =>
          by_cases hd : d.name ∈ (history (calls.take i)).2.names
          · rw [run_add_of_mem hd] at h
            cases h
          · obtain ⟨after, hrun, -⟩ := run_add_of_not_mem hd
            rw [hrun] at h
            cases h
      | finalize =>
          rw [run_finalize, Answer.manifest.injEq] at h
          rw [← h]
          exact history_entries _

/-- Any sequence of calls on the exports of a new file keeps the names that are seen those of the
entries, which are distinct, and the entries are the declarations that were added, in order. A
declaration is refused under its name if and only if one of that name was added before; else it is
added. A refused call leaves no trace: without it, the other calls have the same answers and the
exports are the same. A manifest holds what was added before it was taken and stays as it is, and
it begins every later one. -/
theorem calls_collected (calls : List Call) :
    (history calls).2.seen.toFinset = (history calls).2.names.toFinset ∧
      (history calls).2.names.Nodup ∧
      (history calls).2.entries = accepted (history calls).1 ∧
      (∀ i d, calls[i]? = some (.add d) →
        ((history calls).1[i]? = some (.refused (.duplicateExport d.name)) ∧
          (∃ e ∈ accepted ((history calls).1.take i), e.name = d.name) ∧
          history (calls.eraseIdx i) = ((history calls).1.eraseIdx i, (history calls).2)) ∨
        ((history calls).1[i]? = some (.added d) ∧
          ∀ e ∈ accepted ((history calls).1.take i), e.name ≠ d.name)) ∧
      (∀ i, calls[i]? = some .finalize → ∃ m, (history calls).1[i]? = some (.manifest m) ∧
        m.entries = accepted ((history calls).1.take i) ∧
        ∀ name, m.contains name = true ↔
          ∃ e ∈ accepted ((history calls).1.take i), e.name = name) ∧
      (∀ more, (history calls).1 <+: (history (calls ++ more)).1) ∧
      ∀ (i j : Nat) (m later : Manifest), i ≤ j →
        (history calls).1[i]? = some (.manifest m) →
        (history calls).1[j]? = some (.manifest later) → m.entries <+: later.entries := by
  refine ⟨to_finset_seen _, (history calls).2.distinct, history_entries calls, fun i d hd => ?_,
    fun i hi => ?_, history_prefix calls, fun i j m later hij hm hlater => ?_⟩
  · obtain ⟨hanswer, htake⟩ := answer_at hd
    rw [htake]
    by_cases htaken : d.name ∈ (history (calls.take i)).2.names
    · have hrun := run_add_of_mem htaken
      refine .inl ⟨?_, (mem_names_iff _ _).mp htaken, history_erase hd (by rw [hrun])⟩
      rw [hanswer, hrun]
    · obtain ⟨after, hrun, -⟩ := run_add_of_not_mem htaken
      refine .inr ⟨?_, fun e he hname => htaken ((mem_names_iff _ _).mpr ⟨e, he, hname⟩)⟩
      rw [hanswer, hrun]
  · obtain ⟨hanswer, htake⟩ := answer_at hi
    rw [run_finalize] at hanswer
    have hentries := manifest_at hanswer
    refine ⟨_, hanswer, hentries, fun name => ?_⟩
    rw [contains_iff, hentries]
  · rw [manifest_at hm, manifest_at hlater]
    exact (List.take_prefix_take_left hij).filterMap _

/-- Calls that add a name twice, with manifests taken before and after. -/
def repeatedCalls : List Call :=
  [.add ⟨"A", .ref "string"⟩, .finalize, .add ⟨"A", .ref "number"⟩, .add ⟨"B", .ref "A"⟩, .finalize]

/-- The second addition of a name is refused, and the first manifest begins the second one. -/
theorem calls_collected_repeated :
    repeatedCalls[2]? = some (.add ⟨"A", .ref "number"⟩) ∧
      (history repeatedCalls).1[2]? = some (.refused (.duplicateExport "A")) ∧
      history (repeatedCalls.eraseIdx 2) =
        ((history repeatedCalls).1.eraseIdx 2, (history repeatedCalls).2) ∧
      ∃ m later, (history repeatedCalls).1[1]? = some (.manifest m) ∧
        (history repeatedCalls).1[4]? = some (.manifest later) ∧
        m.names = ["A"] ∧ later.names = ["A", "B"] ∧ m.entries <+: later.entries := by
  obtain ⟨-, -, -, hadds, -, -, hmanifests⟩ := calls_collected repeatedCalls
  obtain ⟨hrefused, -, herase⟩ | ⟨-, hnew⟩ := hadds 2 ⟨"A", .ref "number"⟩ rfl
  · exact ⟨rfl, hrefused, herase, _, _, rfl, rfl, rfl, rfl,
      hmanifests 1 4 _ _ (by decide) rfl rfl⟩
  · exact absurd rfl (hnew ⟨"A", .ref "string"⟩ (.head _))

end TypeSuite.Exports
