import TypeSuite.Build.Run
import TypeSuite.Proofs.Build.Stages
import TypeSuite.Proofs.Store.Writing

/-!
# Steps of a run

A run takes one file after the other: the file is begun, read and compiled, and its module is
written. `outcome` is what compiling a file gives in a store, and the lemmas tell from it what a
step does to the state of a run.
-/

namespace TypeSuite

open Step (run_bind_of_error run_bind_of_ok)

/-- A report keeps the channel of the log. It adds a line to the file of the channel or leaves the
store alone. -/
theorem Workspace.report_cases (w : Workspace) (e : Event) :
    (w.report e).log.channel = w.log.channel ∧
      ((w.report e).store = w.store ∨
        ∃ channel ∈ w.log.channel, ∃ path, ∃ line : String, channel.file = some path ∧
          w.store.append path line.toUTF8 = .ok (w.report e).store) := by
  rw [report, write]
  split
  case h_1 => exact ⟨rfl, .inl rfl⟩
  case h_2 channel hchannel =>
    split
    case isFalse => exact ⟨rfl, .inl rfl⟩
    case isTrue =>
      split
      case h_1 => exact ⟨rfl, .inl rfl⟩
      case h_2 text htext =>
        refine ⟨rfl, ?_⟩
        cases hfile : channel.file with
        | none => exact .inl rfl
        | some path =>
            cases happend : w.store.append path (text ++ "\n").toUTF8 with
            | error fault => exact .inl (by simp only [happend])
            | ok t =>
                exact .inr ⟨channel, hchannel, path, text ++ "\n", hfile, by simp only [happend]⟩

namespace RunState

/-- The state after the report of an event. -/
def report (q : RunState) (e : Event) : RunState :=
  { q with workspace := q.workspace.report e }

/-- The state after the reports of some events. -/
def reportAll (q : RunState) (events : List Event) : RunState :=
  events.foldl report q

/-- The state with another store. -/
def withStore (q : RunState) (s : Store) : RunState :=
  { q with workspace := { q.workspace with store := s } }

/-- The state in which a file is begun. -/
def start (q : RunState) (source : String) (output : Path) : RunState :=
  { q.report (.building source output.toString) with begun := q.begun ++ [(source, output)] }

/-- What every report keeps stays through any number of them. -/
theorem report_all_keeps {holds : RunState → Prop} (hreport : ∀ q e, holds q → holds (q.report e))
    {q : RunState} (hq : holds q) (events : List Event) : holds (q.reportAll events) := by
  induction events generalizing q with
  | nil => exact hq
  | cons e rest ih => exact ih (hreport q e hq)

end RunState

namespace Run

/-- The run of a report. -/
theorem run_report (e : Event) (q : RunState) : (report e).run q = (.ok (), q.report e) :=
  rfl

/-- The run of several reports. -/
theorem run_reports (events : List Event) (q : RunState) :
    (events.forM report).run q = (.ok (), q.reportAll events) := by
  induction events generalizing q with
  | nil => rfl
  | cons e rest ih =>
      rw [List.forM, run_bind_of_ok (run_report e q), ih]
      rfl

/-- The run of work on the store. -/
theorem run_on_store {α : Type} (work : StoreWork α) (q : RunState) :
    (onStore work).run q =
      (.ok (work.run q.workspace.store).1, q.withStore (work.run q.workspace.store).2) :=
  rfl

end Run

namespace Builder

variable (b : Builder) (reader : SourceReader) (source : String)

/-- What compiling a file gives in a store when nothing else is done: the text of its module, or why
there is none. -/
def outcome (s : Store) : Except Failure String :=
  ((b.compileAt reader source).run ⟨.ofStore s, []⟩).1.bind id

/-- The run of compiling a file. -/
theorem run_compile_at_of_read (q : RunState) :
    (b.compileAt reader source).run q =
      match q.workspace.store.read (.ofString source) with
      | .error fault => (.ok (.error (.unreadable source ⟨fault, .ofString source⟩)), q)
      | .ok content =>
        let built := (b.compileSource reader content (Path.ofString source).toString).run []
        (.ok built.1, q.reportAll built.2) := by
  have hget : (get : Run RunState).run q = (.ok q, q) := rfl
  rw [compileAt, run_bind_of_ok hget]
  cases q.workspace.store.read (.ofString source) with
  | error fault => rfl
  | ok content => exact run_bind_of_ok (Run.run_reports _ q)

/-- The outcome of a file, from what is read. -/
theorem outcome_eq (s : Store) :
    b.outcome reader source s =
      match s.read (.ofString source) with
      | .error fault => .error (.unreadable source ⟨fault, .ofString source⟩)
      | .ok content =>
        ((b.compileSource reader content (Path.ofString source).toString).run []).1 := by
  rw [outcome, run_compile_at_of_read]
  dsimp only [Workspace.ofStore]
  cases s.read (.ofString source) <;> rfl

/-- Compiling a file gives its outcome in the store and only reports. -/
theorem run_compile_at (q : RunState) :
    ∃ events, (b.compileAt reader source).run q =
      (.ok (b.outcome reader source q.workspace.store), q.reportAll events) := by
  rw [run_compile_at_of_read, outcome_eq]
  cases q.workspace.store.read (.ofString source) with
  | error fault => exact ⟨[], rfl⟩
  | ok content => exact ⟨_, rfl⟩

/-- Building a file whose compilation fails gives that failure. -/
theorem run_build_file_of_error {q : RunState} {failure : Failure}
    (h : b.outcome reader source q.workspace.store = .error failure) :
    ∃ events, (b.buildFile reader source).run q = (.ok (.error failure), q.reportAll events) := by
  obtain ⟨events, hrun⟩ := b.run_compile_at reader source q
  rw [h] at hrun
  exact ⟨events, by rw [buildFile, run_bind_of_ok hrun]; rfl⟩

/-- Building a file whose compilation gives a text writes the text after some reports. -/
theorem run_build_file_of_ok {q : RunState} {text : String}
    (h : b.outcome reader source q.workspace.store = .ok text) :
    ∃ events, ∀ written s,
      (StoreWork.writeWithParents (b.outputPath (.ofString source)) text.toUTF8).run
          (q.reportAll events).workspace.store = (written, s) →
        (b.buildFile reader source).run q =
          (.ok (written.mapError (.unwritable (b.outputPath (.ofString source)))),
            (q.reportAll events).withStore s) := by
  obtain ⟨events, hrun⟩ := b.run_compile_at reader source q
  rw [h] at hrun
  refine ⟨events, fun written s hwritten => ?_⟩
  rw [buildFile, run_bind_of_ok hrun]
  refine (run_bind_of_ok (Run.run_on_store _ _)).trans ?_
  rw [hwritten]
  rfl

/-- What a step of a run makes of a file that is built: a failure with a report becomes a part of
the result, any other failure ends the run. -/
def settle (b : Builder) (source : String) : Except Failure Unit → Run FileResult
  | .ok _ => return ⟨source, b.outputPath (.ofString source), none⟩
  | .error failure =>
    match failure.report? with
    | none => throw failure
    | some text => do
      Run.report (.failed source text)
      return ⟨source, b.outputPath (.ofString source), some text⟩

/-- A step of a run begins its file, builds it and settles what became of it. -/
theorem run_file_of_build {q r : RunState} {built : Except Failure Unit}
    (h : (b.buildFile reader source).run (q.start source (b.outputPath (.ofString source))) =
      (.ok built, r)) :
    (b.runFile reader source).run q = (b.settle source built).run r := by
  have hbegun : (modify fun p => { p with begun := p.begun ++ [(source,
      b.outputPath (.ofString source))] } : Run Unit).run
      (q.report (.building source (b.outputPath (.ofString source)).toString)) =
      (.ok (), q.start source (b.outputPath (.ofString source))) := rfl
  rw [runFile, run_bind_of_ok (Run.run_report _ q), run_bind_of_ok hbegun, run_bind_of_ok h]
  cases built <;> rfl

/-- A failure with a report is reported. -/
theorem run_settle_of_reported {r : RunState} {failure : Failure} {text : String}
    (h : failure.report? = some text) :
    (b.settle source (.error failure)).run r =
      (.ok ⟨source, b.outputPath (.ofString source), some text⟩,
        r.report (.failed source text)) := by
  simp only [settle, h]
  rfl

/-- A failure without a report ends the run. -/
theorem run_settle_of_unreported {r : RunState} {failure : Failure} (h : failure.report? = none) :
    (b.settle source (.error failure)).run r = (.error failure, r) := by
  simp only [settle, h]
  rfl

/-! ## Runs -/

variable {b reader source} {rest : List String} {q r t : RunState} {result : FileResult}

/-- A run ends with its first step if that fails. -/
theorem run_cons_of_error {failure : Failure}
    (h : (b.runFile reader source).run q = (.error failure, r)) :
    (b.run reader (source :: rest)).run q = (.error failure, r) := by
  rw [run, List.mapM_cons, run_bind_of_error h]

/-- A run gives the result of its first step in front of the others. -/
theorem run_cons_of_ok {results : List FileResult}
    (h : (b.runFile reader source).run q = (.ok result, r))
    (hrest : (b.run reader rest).run r = (.ok results, t)) :
    (b.run reader (source :: rest)).run q = (.ok (result :: results), t) := by
  rw [run, List.mapM_cons, run_bind_of_ok h]
  exact run_bind_of_ok hrest

/-- A run fails behind its first step as the rest does. -/
theorem run_cons_of_rest {failure : Failure}
    (h : (b.runFile reader source).run q = (.ok result, r))
    (hrest : (b.run reader rest).run r = (.error failure, t)) :
    (b.run reader (source :: rest)).run q = (.error failure, t) := by
  rw [run, List.mapM_cons, run_bind_of_ok h]
  exact run_bind_of_error hrest

end Builder

end TypeSuite
