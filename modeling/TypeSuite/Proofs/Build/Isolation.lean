import Mathlib.Data.List.Perm.Subperm
import TypeSuite.Proofs.Build.Ending

/-!
# Files built apart from each other

The files of a run have no influence on each other when their modules are written to places of
their own, which no path of a file leads to or breaks off at. `run_isolated` says what such a run
gives and what it leaves in the store, and that neither depends on the order of the files or on
those that fail.
-/

namespace TypeSuite

/-- A log that is kept in no file. -/
def Log.IsQuiet (log : Log) : Prop :=
  ∀ channel ∈ log.channel, channel.file = none

/-- Without a file, the log keeps out of the store. -/
theorem Workspace.report_quiet {w : Workspace} (h : w.log.IsQuiet) (e : Event) :
    (w.report e).store = w.store ∧ (w.report e).log.IsQuiet := by
  obtain ⟨hchannel, hkept⟩ := w.report_cases e
  refine ⟨?_, fun channel hmem => h channel (hchannel ▸ hmem)⟩
  obtain hkept | ⟨channel, hmem, path, line, hfile, -⟩ := hkept
  · exact hkept
  · cases (h channel hmem).symm.trans hfile

/-- The state of a run that has come to a store and keeps no log in it. -/
structure RunState.IsAt (q : RunState) (s : Store) : Prop where
  store : q.workspace.store = s
  quiet : q.workspace.log.IsQuiet

/-- Reports leave a run where it is. -/
theorem RunState.IsAt.report {q : RunState} {s : Store} (h : q.IsAt s) (e : Event) :
    (q.report e).IsAt s := by
  obtain ⟨hstore, hquiet⟩ := Workspace.report_quiet h.quiet e
  exact ⟨hstore.trans h.store, hquiet⟩

/-- Any number of reports leaves a run where it is. -/
theorem RunState.IsAt.report_all {q : RunState} {s : Store} (h : q.IsAt s) (events : List Event) :
    (q.reportAll events).IsAt s :=
  @RunState.report_all_keeps (·.IsAt s) (fun _ e hr => hr.report e) q h events

/-- Beginning a file leaves a run where it is. -/
theorem RunState.IsAt.start {q : RunState} {s : Store} (h : q.IsAt s) (source : String)
    (output : Path) : (q.start source output).IsAt s :=
  ⟨(h.report _).store, (h.report _).quiet⟩

/-- Two stores with the same home and the same entries everywhere. -/
structure Store.Agrees (s t : Store) : Prop where
  home : s.home = t.home
  entries : ∀ l, s.entryAt? l = t.entryAt? l

namespace Builder

variable {b : Builder} {reader : SourceReader} {s t : Store} {sources rest : List String}
  {source : String}

/-- The place of the module that is generated for a file. -/
def placeOf (b : Builder) (s : Store) (source : String) : Except FileFault Location :=
  s.locate (b.outputPath (.ofString source))

/-- What a run says of a file that is compiled in a store. -/
def resultIn (b : Builder) (reader : SourceReader) (s : Store) (source : String) : FileResult :=
  ⟨source, b.outputPath (.ofString source),
    match b.outcome reader source s with
    | .ok _ => none
    | .error failure => failure.report?⟩

/-- A run says of a file that fails why it fails. -/
theorem result_in_of_error {failure : Failure} (h : b.outcome reader source s = .error failure) :
    b.resultIn reader s source = ⟨source, b.outputPath (.ofString source), failure.report?⟩ := by
  rw [resultIn, h]

/-- The store after a file is built in it. -/
def storeAfter (b : Builder) (reader : SourceReader) (s : Store) (source : String) : Store :=
  match b.outcome reader source s, b.placeOf s source with
  | .ok text, .ok l => s.put l (.file text.toUTF8)
  | _, _ => s

/-- Files that can be built in a store without influence on each other. -/
structure Separates (b : Builder) (s : Store) (sources : List String) : Prop where
  /-- No path holds a null character. -/
  named : ∀ x ∈ sources, (Path.ofString x).hasNull = false
  /-- The files that can be read are texts. -/
  texts : ∀ x ∈ sources, ∀ content, s.read (.ofString x) = .ok content → IsText content
  /-- Every module has a place in a directory, and no directory is there. -/
  places : ∀ x ∈ sources, ∃ l, b.placeOf s x = .ok l ∧ s.entryAt? l ≠ some .directory
  /-- No two modules have the same place. -/
  distinct : sources.Pairwise fun x y => b.placeOf s x ≠ b.placeOf s y
  /-- No file is at the place of a module. -/
  inputs : ∀ x ∈ sources, ∀ y ∈ sources, ∀ l, b.placeOf s x = .ok l →
    s.locate (.ofString y) ≠ .ok l
  /-- No path of a file breaks off at the place of a module. -/
  ways : ∀ x ∈ sources, ∀ y ∈ sources, ∀ l, b.placeOf s x = .ok l →
    s.gapOf? (.ofString y) ≠ some l

/-- There is no directory at the place of a module. -/
theorem Separates.free {l : Location} (h : b.Separates s sources) (hx : source ∈ sources)
    (hplace : b.placeOf s source = .ok l) : s.entryAt? l ≠ some .directory := by
  obtain ⟨k, hk, hentry⟩ := h.places source hx
  obtain rfl := Except.ok.inj (hplace.symm.trans hk)
  exact hentry

/-- Files stay separate in another order and when some are left out. -/
theorem Separates.subperm {others : List String} (h : b.Separates s sources)
    (hothers : others.Subperm sources) : b.Separates s others := by
  have hmem := hothers.subset
  refine ⟨fun x hx => h.named x (hmem hx), fun x hx => h.texts x (hmem hx),
    fun x hx => h.places x (hmem hx), ?_,
    fun x hx y hy => h.inputs x (hmem hx) y (hmem hy),
    fun x hx y hy => h.ways x (hmem hx) y (hmem hy)⟩
  obtain ⟨inner, hperm, hsub⟩ := hothers
  exact (hperm.pairwise_iff fun hne => hne.symm).mp (h.distinct.sublist hsub)

/-- What a file that is built leaves as it was for the files behind it. -/
theorem Separates.put {l : Location} (h : b.Separates s (source :: rest))
    (hplace : b.placeOf s source = .ok l) (content : ByteArray) :
    b.Separates (s.put l (.file content)) rest ∧
      ∀ y ∈ rest, b.placeOf (s.put l (.file content)) y = b.placeOf s y ∧
        (s.put l (.file content)).read (.ofString y) = s.read (.ofString y) := by
  have hentry := h.free List.mem_cons_self hplace
  have hrest := h.subperm (List.sublist_cons_self source rest).subperm
  have hways := fun y hy => h.ways source List.mem_cons_self y (List.mem_cons_of_mem _ hy) l hplace
  have hinputs := fun y hy =>
    h.inputs source List.mem_cons_self y (List.mem_cons_of_mem _ hy) l hplace
  have hlocate := fun y hy => Store.locate_put hentry content (hways y hy)
  have hread := fun y hy => Store.read_put hentry content (hways y hy) (hinputs y hy)
  -- The way to a module is there already, so it cannot break off.
  have hplaces : ∀ y ∈ rest, b.placeOf (s.put l (.file content)) y = b.placeOf s y := by
    intro y hy
    obtain ⟨k, hk, -⟩ := hrest.places y hy
    refine (Store.locate_put hentry content ?_).1
    rw [Store.gap_of_locate hk]
    exact nofun
  refine ⟨⟨hrest.named, ?_, ?_, ?_, ?_, ?_⟩, fun y hy => ⟨hplaces y hy, hread y hy⟩⟩
  · intro y hy found hfound
    rw [hread y hy] at hfound
    exact hrest.texts y hy found hfound
  · intro y hy
    obtain ⟨k, hk, hfree⟩ := hrest.places y hy
    have hne : k ≠ l := by
      rintro rfl
      exact (List.pairwise_cons.mp h.distinct).1 y hy (hplace.trans hk.symm)
    exact ⟨k, (hplaces y hy).trans hk, by rwa [Store.entry_at_put_of_ne hne]⟩
  · refine hrest.distinct.imp_of_mem fun hx hy hne => ?_
    rwa [hplaces _ hx, hplaces _ hy]
  · intro x hx y hy k hk
    rw [hplaces x hx] at hk
    rw [(hlocate y hy).1]
    exact hrest.inputs x hx y hy k hk
  · intro x hx y hy k hk
    rw [hplaces x hx] at hk
    rw [(hlocate y hy).2]
    exact hrest.ways x hx y hy k hk

/-- Building a file leaves those behind it separate, and their modules and outcomes as they were. -/
theorem Separates.store_after (reader : SourceReader) (h : b.Separates s (source :: rest)) :
    b.Separates (b.storeAfter reader s source) rest ∧
      ∀ y ∈ rest, b.placeOf (b.storeAfter reader s source) y = b.placeOf s y ∧
        b.outcome reader y (b.storeAfter reader s source) = b.outcome reader y s := by
  unfold storeAfter
  split
  case h_1 text l _ hplace =>
    obtain ⟨hseparates, hsame⟩ := h.put hplace text.toUTF8
    refine ⟨hseparates, fun y hy => ⟨(hsame y hy).1, ?_⟩⟩
    rw [outcome_eq, outcome_eq, (hsame y hy).2]
  case h_2 =>
    exact ⟨h.subperm (List.sublist_cons_self source rest).subperm, fun y _ => ⟨rfl, rfl⟩⟩

/-! ## Steps -/

/-- A file that is separate from others has a module or a failure with a report. -/
theorem Separates.outcome_cases (h : b.Separates s sources) (hreader : reader.IsSound)
    (hx : source ∈ sources) :
    (∃ text, b.outcome reader source s = .ok text) ∨
      ∃ failure message, b.outcome reader source s = .error failure ∧
        failure.report? = some message := by
  cases houtcome : b.outcome reader source s with
  | ok text => exact .inl ⟨text, rfl⟩
  | error failure =>
      cases hreport : failure.report? with
      | some message => exact .inr ⟨failure, message, rfl, hreport⟩
      | none =>
          obtain ⟨l, hl, -⟩ := h.places source hx
          have houtput : (b.outputPath (.ofString source)).hasNull = false := by
            by_contra hnull
            rw [Bool.not_eq_false, ← Store.locate_eq_null_iff] at hnull
            cases hl.symm.trans hnull
          exact ((breaks_of_outcome houtcome hreport).absurd hreader (h.texts source hx)
            (h.named source hx) houtput).elim

/-- A step of a run at a store gives the result of its file there and goes to the store after
it. -/
theorem Separates.run_file (h : b.Separates s sources) (hreader : reader.IsSound)
    (hx : source ∈ sources) {q : RunState} (hq : q.IsAt s) :
    ∃ r, (b.runFile reader source).run q = (.ok (b.resultIn reader s source), r) ∧
      r.IsAt (b.storeAfter reader s source) := by
  have hfile := fun built r => @run_file_of_build b reader source q r built
  have hstart := hq.start source (b.outputPath (.ofString source))
  generalize q.start source (b.outputPath (.ofString source)) = begun at hfile hstart
  obtain ⟨text, houtcome⟩ | ⟨failure, message, houtcome, hreport⟩ :=
    h.outcome_cases hreader hx
  · obtain ⟨l, hplace, hentry⟩ := h.places source hx
    have hbuild := houtcome
    rw [← hstart.store] at hbuild
    obtain ⟨events, hrun⟩ := b.run_build_file_of_ok reader source hbuild
    have hat := hstart.report_all events
    have hwritten := StoreWork.run_write_with_parents hplace hentry text.toUTF8
    have hbuilt := hrun (.ok ()) (s.put l (.file text.toUTF8)) (by rw [hat.store, hwritten])
    refine ⟨(begun.reportAll events).withStore (s.put l (.file text.toUTF8)), ?_, ?_⟩
    · rw [hfile _ _ hbuilt, resultIn, houtcome]
      rfl
    · rw [storeAfter, houtcome, hplace]
      exact ⟨rfl, hat.quiet⟩
  · have hbuild := houtcome
    rw [← hstart.store] at hbuild
    obtain ⟨events, hrun⟩ := b.run_build_file_of_error reader source hbuild
    refine ⟨(begun.reportAll events).report (.failed source message), ?_, ?_⟩
    · rw [hfile _ _ hrun, run_settle_of_reported b source hreport, result_in_of_error houtcome,
        hreport]
    · rw [storeAfter, houtcome]
      exact (hstart.report_all events).report _

/-! ## Runs -/

/-- What building files in a store leaves behind: each module is at its place, and everything else
is as it was. -/
structure Builds (b : Builder) (reader : SourceReader) (s : Store) (sources : List String)
    (t : Store) : Prop where
  home : t.home = s.home
  written : ∀ x ∈ sources, ∀ text l, b.outcome reader x s = .ok text → b.placeOf s x = .ok l →
    t.entryAt? l = some (.file text.toUTF8)
  kept : ∀ l, (∀ x ∈ sources, ∀ text, b.outcome reader x s = .ok text → b.placeOf s x ≠ .ok l) →
    t.entryAt? l = s.entryAt? l

/-- Without files, nothing changes. -/
theorem builds_nil (b : Builder) (reader : SourceReader) (s : Store) : b.Builds reader s [] s :=
  ⟨rfl, fun _ hx => absurd hx List.not_mem_nil, fun _ _ => rfl⟩

/-- The store after a first file has the home of the one before. -/
theorem home_store_after : (b.storeAfter reader s source).home = s.home := by
  unfold storeAfter
  split <;> rfl

/-- The store after a file has all entries of the one before but at the place of a module. -/
theorem entry_at_store_after {l : Location}
    (h : ∀ text, b.outcome reader source s = .ok text → b.placeOf s source ≠ .ok l) :
    (b.storeAfter reader s source).entryAt? l = s.entryAt? l := by
  unfold storeAfter
  split
  case h_1 text k houtcome hplace =>
    refine Store.entry_at_put_of_ne ?_ _
    rintro rfl
    exact h text houtcome hplace
  case h_2 => rfl

/-- What files leave behind after a first one, all of them leave behind. -/
theorem Separates.builds_cons (h : b.Separates s (source :: rest))
    (hrest : b.Builds reader (b.storeAfter reader s source) rest t) :
    b.Builds reader s (source :: rest) t := by
  obtain ⟨-, hsame⟩ := h.store_after reader
  refine ⟨hrest.home.trans home_store_after, ?_, ?_⟩
  · intro x hx text l houtcome hplace
    obtain rfl | hx := List.mem_cons.mp hx
    · -- No file behind it writes to the place of its module.
      have hfree := hrest.kept l fun y hy _ _ hy' => by
        rw [(hsame y hy).1] at hy'
        exact (List.pairwise_cons.mp h.distinct).1 y hy (hplace.trans hy'.symm)
      rw [hfree, storeAfter, houtcome, hplace]
      exact Store.entry_at_put_self (h.free List.mem_cons_self hplace) _
    · rw [← (hsame x hx).2] at houtcome
      rw [← (hsame x hx).1] at hplace
      exact hrest.written x hx text l houtcome hplace
  · intro l hl
    rw [← entry_at_store_after (hl source List.mem_cons_self)]
    refine hrest.kept l fun y hy text houtcome hplace => ?_
    rw [(hsame y hy).2] at houtcome
    rw [(hsame y hy).1] at hplace
    exact hl y (List.mem_cons_of_mem _ hy) text houtcome hplace

/-- A run over separate files gives the result of each in the store it starts from, and leaves their
modules behind. -/
theorem Separates.run (h : b.Separates s sources) (hreader : reader.IsSound) {q : RunState}
    (hq : q.IsAt s) :
    ∃ r, (b.run reader sources).run q = (.ok (sources.map (b.resultIn reader s)), r) ∧
      b.Builds reader s sources r.workspace.store := by
  induction sources generalizing s q with
  | nil => exact ⟨q, rfl, hq.store ▸ builds_nil b reader s⟩
  | cons source rest ih =>
      obtain ⟨r, hfile, hr⟩ := h.run_file hreader List.mem_cons_self hq
      obtain ⟨hseparates, hsame⟩ := h.store_after reader
      obtain ⟨final, hrest, hbuilds⟩ := ih hseparates hr
      have hresults : rest.map (b.resultIn reader (b.storeAfter reader s source)) =
          rest.map (b.resultIn reader s) :=
        List.map_congr_left fun y hy => by rw [resultIn, resultIn, (hsame y hy).2]
      rw [hresults] at hrest
      exact ⟨final, run_cons_of_ok hfile hrest, h.builds_cons hbuilds⟩

/-- Two runs over the same modules leave the same behind. -/
theorem Builds.agrees {others : List String} {u : Store} (h : b.Builds reader s sources t)
    (hothers : b.Builds reader s others u)
    (hsame : ∀ x text, b.outcome reader x s = .ok text → (x ∈ sources ↔ x ∈ others)) :
    u.Agrees t := by
  refine ⟨hothers.home.trans h.home.symm, fun l => ?_⟩
  by_cases hl : ∃ x ∈ sources, ∃ text, b.outcome reader x s = .ok text ∧ b.placeOf s x = .ok l
  · obtain ⟨x, hx, text, houtcome, hplace⟩ := hl
    rw [h.written x hx text l houtcome hplace,
      hothers.written x ((hsame x text houtcome).mp hx) text l houtcome hplace]
  · rw [h.kept l fun x hx text houtcome hplace => hl ⟨x, hx, text, houtcome, hplace⟩,
      hothers.kept l fun x hx text houtcome hplace =>
        hl ⟨x, (hsame x text houtcome).mpr hx, text, houtcome, hplace⟩]

/-- A run over some of separate files, in any order, gives the result of each in the store it starts
from. It leaves the same behind as the run over all when none of the files that are left out has a
module. -/
theorem Separates.run_others {others : List String} (h : b.Separates s sources)
    (hreader : reader.IsSound) {q : RunState} (hq : q.IsAt s) (ht : b.Builds reader s sources t)
    (hothers : others.Subperm sources)
    (hmodules : ∀ x ∈ sources, ∀ text, b.outcome reader x s = .ok text → x ∈ others) :
    ∃ r, (b.run reader others).run q = (.ok (others.map (b.resultIn reader s)), r) ∧
      r.workspace.store.Agrees t := by
  obtain ⟨r, hrun, hbuilds⟩ := (h.subperm hothers).run hreader hq
  exact ⟨r, hrun, ht.agrees hbuilds fun x text houtcome =>
    ⟨fun hx => hmodules x hx text houtcome, fun hx => hothers.subset hx⟩⟩

/-- A text is what a file is compiled to in a store: the file is read there, it stands for a source
file, and the module of that goes behind the header. -/
def CompilesTo (b : Builder) (reader : SourceReader) (s : Store) (source text : String) : Prop :=
  ∃ content f written, s.read (.ofString source) = .ok content ∧
    ((Build.parse reader content (Path.ofString source).toString).run []).1 = .ok f ∧
    ((b.compileFile Resolver.declared [] f).run []).1 = .ok written ∧
    text = b.config.output.header ++ written

/-- The text that compiling a file gives is its module behind the header. -/
theorem compiles_to_of_outcome {text : String} (h : b.outcome reader source s = .ok text) :
    b.CompilesTo reader s source text := by
  rw [outcome_eq] at h
  cases hread : s.read (.ofString source) with
  | error fault =>
      rw [hread] at h
      cases h
  | ok content =>
      rw [hread] at h
      simp only [result_compile_source] at h
      cases hparse : ((Build.parse reader content (Path.ofString source).toString).run []).1 with
      | error failure =>
          rw [hparse] at h
          cases h
      | ok f =>
          rw [hparse, Except.bind] at h
          cases hfile : ((b.compileFile Resolver.declared [] f).run []).1 with
          | error failure =>
              rw [hfile] at h
              cases h
          | ok written =>
              rw [hfile] at h
              exact ⟨content, f, written, hread, hparse, hfile, (Except.ok.inj h).symm⟩

/-- A run over separate files gives one result for each, in order: that of compiling it alone in the
store from which the run starts. Afterwards the module of each file that has one is at its place,
and all else is as it was. Another order of the files changes only the order of the results, and a
file that fails can be left out without a change for the others. -/
theorem run_isolated (b : Builder) (hreader : reader.IsSound) {q : RunState}
    (hlog : q.workspace.log.IsQuiet) (h : b.Separates q.workspace.store sources) :
    ∃ r, (b.run reader sources).run q =
        (.ok (sources.map (b.resultIn reader q.workspace.store)), r) ∧
      b.Builds reader q.workspace.store sources r.workspace.store ∧
      (∀ x ∈ sources,
        (∃ text, b.outcome reader x q.workspace.store = .ok text ∧
          b.CompilesTo reader q.workspace.store x text) ∨
        ∃ failure message, b.outcome reader x q.workspace.store = .error failure ∧
          failure.report? = some message) ∧
      (∀ others, others.Perm sources → ∃ t, (b.run reader others).run q =
          (.ok (others.map (b.resultIn reader q.workspace.store)), t) ∧
        t.workspace.store.Agrees r.workspace.store) ∧
      ∀ before x after failure, sources = before ++ x :: after →
        b.outcome reader x q.workspace.store = .error failure →
        ∃ t, (b.run reader (before ++ after)).run q =
            (.ok ((before ++ after).map (b.resultIn reader q.workspace.store)), t) ∧
          t.workspace.store.Agrees r.workspace.store := by
  have hq : q.IsAt q.workspace.store := ⟨rfl, hlog⟩
  obtain ⟨r, hrun, hbuilds⟩ := h.run hreader hq
  refine ⟨r, hrun, hbuilds, fun x hx => ?_, fun others hperm => ?_, ?_⟩
  · obtain ⟨text, houtcome⟩ | hfails := h.outcome_cases hreader hx
    · exact .inl ⟨text, houtcome, compiles_to_of_outcome houtcome⟩
    · exact .inr hfails
  · exact h.run_others hreader hq hbuilds hperm.subperm fun x hx _ _ => hperm.mem_iff.mpr hx
  · intro before x after failure hsplit hfails
    have hsub : (before ++ after).Sublist sources :=
      hsplit ▸ (List.sublist_cons_self x after).append_left before
    refine h.run_others hreader hq hbuilds hsub.subperm fun y hy text houtcome => ?_
    -- A file with a module is not the one that fails.
    have hne : y ≠ x := by
      rintro rfl
      cases houtcome.symm.trans hfails
    rw [hsplit] at hy
    simpa [hne] using hy

/-- The builder that writes modules into a directory of their own. -/
def outBuilder : Builder :=
  ofConfig { output := { outDir := some "out" } }

/-- A store with an alias of an array, an alias that breaks off and a directory for modules. -/
def outStore : Store := textStore.put ["out"] .directory

/-- The files of the store, one of which is not there, are separate. -/
theorem out_store_separates : outBuilder.Separates outStore ["b.ts", "c.ts", "a.ts"] where
  named := by decide +kernel
  texts := fun x _ _ hread => (lasts_holds_text.directory _ _ text_store_holds_text).read hread
  places := by
    have hplaces : ∀ x ∈ ["b.ts", "c.ts", "a.ts"], ∃ l ∈ [["out", "b-ti.ts"], ["out", "c-ti.ts"],
        ["out", "a-ti.ts"]], outBuilder.placeOf outStore x = .ok l ∧
          outStore.entryAt? l ≠ some .directory := by decide +kernel
    intro x hx
    obtain ⟨l, -, hl⟩ := hplaces x hx
    exact ⟨l, hl⟩
  distinct := by decide +kernel
  inputs := by
    have hinputs : ∀ x ∈ ["b.ts", "c.ts", "a.ts"], ∀ y ∈ ["b.ts", "c.ts", "a.ts"],
        outBuilder.placeOf outStore x ≠ outStore.locate (.ofString y) := by decide +kernel
    exact fun x hx y hy l hl hy' => hinputs x hx y hy (hl.trans hy'.symm)
  ways := by
    have hways : ∀ y ∈ ["b.ts", "c.ts", "a.ts"],
        outStore.gapOf? (.ofString y) = none := by decide +kernel
    intro x hx y hy l hl hy'
    rw [hways y hy] at hy'
    cases hy'

/-- Of a file with a syntax error, one that is not there and an alias of an array, the last one is
built. -/
theorem run_isolated_alias :
    outBuilder.Separates outStore ["b.ts", "c.ts", "a.ts"] ∧
      ∃ r text, (outBuilder.run arrayReader ["b.ts", "c.ts", "a.ts"]).run
          ⟨.ofStore outStore, []⟩ =
        (.ok [⟨"b.ts", ⟨"", ["out", "b-ti.ts"]⟩, some "Can't process b.ts: 1:1: syntax error"⟩,
          ⟨"c.ts", ⟨"", ["out", "c-ti.ts"]⟩,
            some "Failed to read c.ts: [Errno 2] No such file or directory: 'c.ts'"⟩,
          ⟨"a.ts", ⟨"", ["out", "a-ti.ts"]⟩, none⟩], r) ∧
        outBuilder.CompilesTo arrayReader outStore "a.ts" text ∧
        r.workspace.store.entryAt? ["out", "a-ti.ts"] = some (.file text.toUTF8) ∧
        r.workspace.store.entryAt? ["out", "b-ti.ts"] = none := by
  obtain ⟨r, hrun, hbuilds, hcases, -, -⟩ := run_isolated (q := ⟨.ofStore outStore, []⟩) outBuilder
    array_reader_is_sound nofun out_store_separates
  have hbuilt : (outBuilder.outcome arrayReader "a.ts" outStore).isOk = true := by decide +kernel
  have hrefused : ∀ x ∈ ["b.ts", "c.ts", "a.ts"],
      (outBuilder.outcome arrayReader x outStore).isOk = true →
        outBuilder.placeOf outStore x ≠ .ok ["out", "b-ti.ts"] := by decide +kernel
  obtain ⟨text, houtcome, htext⟩ | ⟨failure, message, houtcome, -⟩ := hcases "a.ts" (by simp)
  · have hwritten := hbuilds.written "a.ts" (by simp) text ["out", "a-ti.ts"] houtcome
      (by decide +kernel)
    have hkept := hbuilds.kept ["out", "b-ti.ts"] fun x hx found hfound =>
      hrefused x hx (congrArg Except.isOk hfound)
    refine ⟨out_store_separates, r, text, hrun.trans ?_, htext, hwritten, hkept.trans ?_⟩
    · exact congrArg (·, r) (congrArg Except.ok (by decide +kernel))
    · decide +kernel
  · rw [show outBuilder.outcome arrayReader "a.ts" outStore = _ from houtcome] at hbuilt
    cases hbuilt

/-- A store with an interface and a directory for modules. -/
def wayStore : Store :=
  (Store.empty.put ["a.ts"] (.file "interface A \x7b\x7d\n".toUTF8)).put ["out"] .directory

/-- A file whose path leads through the place of a module that is written before it fails for
another reason than alone: there is something at that place, but no directory. A null character in
a path ends the run. -/
theorem way_through_module :
    ((outBuilder.run Source.read ["a.ts", "out/a-ti.ts/x.ts"]).run ⟨.ofStore wayStore, []⟩).1 =
        .ok [⟨"a.ts", ⟨"", ["out", "a-ti.ts"]⟩, none⟩,
          ⟨"out/a-ti.ts/x.ts", ⟨"", ["out", "x-ti.ts"]⟩, some ("Failed to read " ++
            "out/a-ti.ts/x.ts: [Errno 20] Not a directory: 'out/a-ti.ts/x.ts'")⟩] ∧
      outBuilder.resultIn Source.read wayStore "out/a-ti.ts/x.ts" =
        ⟨"out/a-ti.ts/x.ts", ⟨"", ["out", "x-ti.ts"]⟩, some ("Failed to read " ++
          "out/a-ti.ts/x.ts: [Errno 2] No such file or directory: 'out/a-ti.ts/x.ts'")⟩ ∧
      outBuilder.placeOf wayStore "a.ts" = .ok ["out", "a-ti.ts"] ∧
      outBuilder.placeOf wayStore "out/a-ti.ts/x.ts" = .ok ["out", "x-ti.ts"] ∧
      wayStore.entryAt? ["out", "a-ti.ts"] = none ∧ wayStore.entryAt? ["out", "x-ti.ts"] = none ∧
      ((outBuilder.run Source.read ["d\x00/x.ts"]).run ⟨.ofStore wayStore, []⟩).1 =
        .error (.unreadable "d\x00/x.ts" ⟨.nullInName, .ofString "d\x00/x.ts"⟩) := by
  decide +kernel

end Builder

end TypeSuite
