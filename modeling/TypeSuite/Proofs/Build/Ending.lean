import TypeSuite.Proofs.Build.Steps

/-!
# How runs end

A run gives one result for each file, in order, unless a file breaks it: its tree has no syntax
error and no meaning, or a null character is in its path or in the path of its module.
`run_completes` says so for all stores, and that runs over texts complete.
-/

namespace TypeSuite

/-- Files stay texts when an event is reported. -/
theorem Workspace.report_holds_text {w : Workspace} (h : w.store.HoldsText) (e : Event) :
    (w.report e).store.HoldsText := by
  obtain ⟨-, hkept | ⟨channel, -, path, line, -, happend⟩⟩ := w.report_cases e
  · rwa [hkept]
  · exact h.append happend

namespace Builder

variable {b : Builder} {reader : SourceReader} {source : String}

/-- Why a file ends a run when it is built in a store. -/
inductive Breaks (b : Builder) (reader : SourceReader) (source : String) (s : Store) :
    Failure → Prop where
  /-- The tree of the file has no syntax error and no meaning. -/
  | lowering {content : ByteArray} {fault : LoweringFault} :
      s.read (.ofString source) = .ok content → (reader content).head.hasError = false →
      (reader content).lower content (Path.ofString source).toString = .error fault →
      Breaks b reader source s (.lowering fault)
  /-- The path of the file holds a null character. -/
  | source : (Path.ofString source).hasNull = true →
      Breaks b reader source s (.unreadable source ⟨.nullInName, .ofString source⟩)
  /-- The path of the module holds a null character. -/
  | output {e : FileError} : (b.outputPath (.ofString source)).hasNull = true →
      e.fault = .nullInName →
      Breaks b reader source s (.unwritable (b.outputPath (.ofString source)) e)

/-- A file that is not compiled for a reason without a report breaks the run. -/
theorem breaks_of_outcome {s : Store} {failure : Failure}
    (h : b.outcome reader source s = .error failure) (hreport : failure.report? = none) :
    b.Breaks reader source s failure := by
  rw [outcome_eq] at h
  cases hread : s.read (.ofString source) with
  | error fault =>
      rw [hread] at h
      obtain rfl := Except.error.inj h
      rw [Failure.report?, Option.map_eq_none_iff, FileError.message_eq_none_iff] at hreport
      obtain rfl : fault = .nullInName := hreport
      exact .source (Store.hasNull_of_read hread)
  | ok content =>
      rw [hread] at h
      obtain ⟨herror, fault, hlower, rfl⟩ := unreported_compile_source h hreport
      exact .lowering hread herror hlower

/-- With a sound reader, a text breaks no run when neither path holds a null character. -/
theorem Breaks.absurd {s : Store} {failure : Failure} (h : b.Breaks reader source s failure)
    (hreader : reader.IsSound)
    (htext : ∀ content, s.read (.ofString source) = .ok content → IsText content)
    (hsource : (Path.ofString source).hasNull = false)
    (houtput : (b.outputPath (.ofString source)).hasNull = false) : False := by
  cases h with
  | lowering hread herror hlower =>
      obtain ⟨text, rfl⟩ := htext _ hread
      obtain ⟨f, hf⟩ := hreader.lower herror (Path.ofString source).toString
      cases hf.symm.trans hlower
  | source hnull => cases hsource.symm.trans hnull
  | output hnull _ => cases houtput.symm.trans hnull

/-- A property of stores that a run keeps whatever it reports and writes. -/
structure Lasts (holds : Store → Prop) : Prop where
  report : ∀ (w : Workspace) e, holds w.store → holds (w.report e).store
  directory : Store.Admits holds .directory
  text : ∀ text : String, Store.Admits holds (.file text.toUTF8)

/-- Files that are texts last. -/
theorem lasts_holds_text : Lasts Store.HoldsText where
  report := fun _ e h => Workspace.report_holds_text h e
  directory := Store.holds_text_admits nofun
  text := fun text => Store.holds_text_admits fun _ h => ⟨text, (Entry.file.inj h).symm⟩

/-- A property without content lasts. -/
theorem lasts_true : Lasts fun _ => True :=
  ⟨fun _ _ _ => trivial, fun _ _ _ => trivial, fun _ _ _ _ => trivial⟩

variable {holds : Store → Prop}

/-- Reports keep what lasts. -/
theorem Lasts.report_all (h : Lasts holds) {q : RunState} (hq : holds q.workspace.store)
    (events : List Event) : holds (q.reportAll events).workspace.store :=
  @RunState.report_all_keeps (fun r => holds r.workspace.store)
    (fun r e => h.report r.workspace e) q hq events

/-- Building a file keeps what lasts. It gives a failure without a report only for a file that
breaks the run. -/
theorem Lasts.run_build_file (h : Lasts holds) (b : Builder) (reader : SourceReader)
    (source : String) {q : RunState} (hq : holds q.workspace.store) :
    ∃ built r, (b.buildFile reader source).run q = (.ok built, r) ∧ holds r.workspace.store ∧
      ∀ failure, built = .error failure → failure.report? = none →
        b.Breaks reader source q.workspace.store failure := by
  cases houtcome : b.outcome reader source q.workspace.store with
  | error failure =>
      obtain ⟨events, hrun⟩ := b.run_build_file_of_error reader source houtcome
      refine ⟨_, _, hrun, h.report_all hq events, ?_⟩
      rintro _ ⟨⟩ hreport
      exact breaks_of_outcome houtcome hreport
  | ok text =>
      obtain ⟨events, hrun⟩ := b.run_build_file_of_ok reader source houtcome
      have hmeets : StoreWork.Meets holds
          (fun e => e.fault = .nullInName → (b.outputPath (.ofString source)).hasNull = true)
          (StoreWork.writeWithParents (b.outputPath (.ofString source)) text.toUTF8) :=
        StoreWork.meets_write_with_parents h.directory.directories (h.text text) fun _ he => he
      obtain ⟨hkept, hfails⟩ := hmeets _ (h.report_all hq events)
      cases hwritten : (StoreWork.writeWithParents (b.outputPath (.ofString source))
          text.toUTF8).run (q.reportAll events).workspace.store with
      | mk written s =>
          rw [hwritten] at hkept hfails
          refine ⟨_, _, hrun written s hwritten, hkept, ?_⟩
          intro failure hfailure hreport
          cases written with
          | ok _ => cases hfailure
          | error e =>
              obtain rfl := Except.error.inj hfailure
              rw [Failure.report?, Option.map_eq_none_iff, FileError.message_eq_none_iff] at hreport
              exact .output (hfails e rfl hreport) hreport

/-- A step of a run keeps what lasts. It ends with the result of its file, or because the file
breaks the run. -/
theorem Lasts.run_file (h : Lasts holds) (b : Builder) (reader : SourceReader) (source : String)
    {q : RunState} (hq : holds q.workspace.store) :
    holds ((b.runFile reader source).run q).2.workspace.store ∧
      ((∃ error, ((b.runFile reader source).run q).1 =
        .ok ⟨source, b.outputPath (.ofString source), error⟩) ∨
      ∃ failure, ((b.runFile reader source).run q).1 = .error failure ∧
        b.Breaks reader source
          (q.start source (b.outputPath (.ofString source))).workspace.store failure) := by
  obtain ⟨built, r, hbuild, hr, hbreaks⟩ := h.run_build_file b reader source
    (q := q.start source (b.outputPath (.ofString source))) (h.report q.workspace _ hq)
  rw [b.run_file_of_build reader source hbuild]
  cases built with
  | ok _ => exact ⟨hr, .inl ⟨none, rfl⟩⟩
  | error failure =>
      cases hreport : failure.report? with
      | none =>
          rw [run_settle_of_unreported b source hreport]
          exact ⟨hr, .inr ⟨failure, rfl, hbreaks failure rfl hreport⟩⟩
      | some text =>
          rw [run_settle_of_reported b source hreport]
          exact ⟨h.report r.workspace _ hr, .inl ⟨some text, rfl⟩⟩

/-- The files of a run, each with the path of its module. -/
def plan (b : Builder) (sources : List String) : List (String × Path) :=
  sources.map fun source => (source, b.outputPath (.ofString source))

/-- A run keeps what lasts. It gives one result for each file, in order, or the first file that
breaks it is reached and ends it. -/
theorem Lasts.run (h : Lasts holds) (b : Builder) (reader : SourceReader) (sources : List String)
    {q : RunState} (hq : holds q.workspace.store) :
    (∃ results r, (b.run reader sources).run q = (.ok results, r) ∧
      results.map (fun result => (result.source, result.output)) = b.plan sources) ∨
    ∃ before source after results r failure, sources = before ++ source :: after ∧
      (b.run reader before).run q = (.ok results, r) ∧ holds r.workspace.store ∧
      ((b.run reader sources).run q).1 = .error failure ∧
      b.Breaks reader source
        (r.start source (b.outputPath (.ofString source))).workspace.store failure := by
  induction sources generalizing q with
  | nil => exact .inl ⟨[], q, rfl, rfl⟩
  | cons source rest ih =>
      obtain ⟨hkept, hends⟩ := h.run_file b reader source hq
      cases hfile : (b.runFile reader source).run q with
      | mk outcome r =>
          rw [hfile] at hkept hends
          obtain ⟨error, rfl⟩ | ⟨failure, rfl, hbreaks⟩ := hends
          · obtain ⟨results, t, hrest, hplan⟩ |
              ⟨before, later, after, results, t, failure, rfl, hbefore, ht, hrest, hbreaks⟩ :=
              ih hkept
            · refine .inl ⟨_, t, run_cons_of_ok hfile hrest, ?_⟩
              rw [List.map_cons, hplan, plan, plan, List.map_cons]
            · refine .inr ⟨source :: before, later, after, _, t, failure, rfl,
                run_cons_of_ok hfile hbefore, ht, ?_, hbreaks⟩
              rw [run_cons_of_rest hfile (Prod.ext hrest rfl)]
          · refine .inr ⟨[], source, rest, [], q, failure, rfl, rfl, hq, ?_, hbreaks⟩
            rw [run_cons_of_error hfile]

/-- A run gives one result for each file, in order, or the first file that breaks it is reached and
ends it. A run over a store of texts completes when the reader is sound and no path holds a null
character. -/
theorem run_completes (b : Builder) (reader : SourceReader) (sources : List String)
    (q : RunState) :
    ((∃ results r, (b.run reader sources).run q = (.ok results, r) ∧
      results.map (fun result => (result.source, result.output)) = b.plan sources) ∨
    ∃ before source after results r failure, sources = before ++ source :: after ∧
      (b.run reader before).run q = (.ok results, r) ∧
      ((b.run reader sources).run q).1 = .error failure ∧
      b.Breaks reader source
        (r.start source (b.outputPath (.ofString source))).workspace.store failure) ∧
    (reader.IsSound → q.workspace.store.HoldsText →
      (∀ source ∈ sources, (Path.ofString source).hasNull = false ∧
        (b.outputPath (.ofString source)).hasNull = false) →
      ∃ results, ((b.run reader sources).run q).1 = .ok results ∧
        results.map (fun result => (result.source, result.output)) = b.plan sources) := by
  constructor
  · obtain hall | ⟨before, source, after, results, r, failure, hsplit, hbefore, -, hrest⟩ :=
      lasts_true.run b reader sources (q := q) trivial
    · exact .inl hall
    · exact .inr ⟨before, source, after, results, r, failure, hsplit, hbefore, hrest⟩
  · intro hreader htext hpaths
    obtain ⟨results, r, hrun, hplan⟩ |
      ⟨before, source, after, results, r, failure, rfl, -, hr, -, hbreaks⟩ :=
      lasts_holds_text.run b reader sources htext
    · exact ⟨results, by rw [hrun], hplan⟩
    · obtain ⟨hsource, houtput⟩ := hpaths source (by simp)
      have hstart := Workspace.report_holds_text hr
        (.building source (b.outputPath (.ofString source)).toString)
      exact (hbreaks.absurd hreader (fun content => hstart.read) hsource houtput).elim

/-- A store with an alias of an array and an alias that breaks off. -/
def textStore : Store :=
  (Store.empty.put ["a.ts"] (.file "type A = é[]".toUTF8)).put ["b.ts"] (.file "type B =".toUTF8)

/-- Both files of the store are texts. -/
theorem text_store_holds_text : textStore.HoldsText := by
  have hempty : Store.empty.HoldsText := by
    intro l content hentry
    rw [Store.entryAt?] at hentry
    split at hentry <;> cases hentry
  exact lasts_holds_text.text "type B =" _ _ (lasts_holds_text.text "type A = é[]" _ _ hempty)

/-- The run over two texts and a file that is not there completes. -/
theorem run_completes_texts :
    textStore.HoldsText ∧ arrayReader.IsSound ∧
      ∃ results, (((ofConfig {}).run arrayReader ["b.ts", "lib/c.ts", "a.ts"]).run
        ⟨.ofStore textStore, []⟩).1 = .ok results ∧
        results.map (fun result => (result.source, result.output)) =
          (ofConfig {}).plan ["b.ts", "lib/c.ts", "a.ts"] := by
  have hall := (run_completes (ofConfig {}) arrayReader ["b.ts", "lib/c.ts", "a.ts"]
    ⟨.ofStore textStore, []⟩).2 array_reader_is_sound text_store_holds_text (by decide +kernel)
  exact ⟨text_store_holds_text, array_reader_is_sound, hall⟩

/-- A store with a file whose comment holds a byte that is no character, and a file behind it. -/
def commentStore : Store :=
  (Store.empty.put ["x.ts"] (.file ("// ".toUTF8 ++ ⟨#[0xff]⟩ ++ "\ntype A=string;".toUTF8))).put
    ["y.ts"] (.file "type A = number;\n".toUTF8)

/-- The run over both files. -/
def commentRun : Except Failure (List FileResult) × RunState :=
  ((ofConfig {}).run Source.read ["x.ts", "y.ts"]).run ⟨.ofStore commentStore, []⟩

/-- A byte in a comment ends the run before the file behind it is begun. -/
theorem run_stopped_by_comment :
    commentRun.1 = .error (.lowering .undecodable) ∧ commentRun.2.begun.map (·.1) = ["x.ts"] := by
  decide +kernel

end Builder

end TypeSuite
