import TypeSuite.Proofs.Build.Outputs
import TypeSuite.Proofs.Store.Changes

/-!
# What a run delivers

A run delivers a module for each file that it says is built: the text that the file is compiled to
at its turn is put at the place that the path of its module leads to. Modules of several files may
go to one place, where the last of them stays. `run_delivers` says so for all runs that complete.
-/

namespace TypeSuite

/-- The log is kept in a file at a place. -/
def RunState.LogsAt (q : RunState) (l : Location) : Prop :=
  ∃ channel ∈ q.workspace.log.channel, ∃ path, channel.file = some path ∧
    q.workspace.store.locate path = .ok l

/-- A log without a channel is kept nowhere. -/
theorem RunState.not_logs_at {q : RunState} (h : q.workspace.log.channel.isNone = true)
    (l : Location) : ¬ q.LogsAt l := by
  rintro ⟨channel, hchannel, -⟩
  rw [Option.isNone_iff_eq_none.mp h] at hchannel
  cases hchannel

/-- A later state of a run: files were put at certain places, and lines into the file of the
log. -/
structure RunState.Leads (q : RunState) (places : Location → Prop) (r : RunState) : Prop where
  channel : r.workspace.log.channel = q.workspace.log.channel
  store : q.workspace.store.Changes (fun l => places l ∨ r.LogsAt l) r.workspace.store

namespace RunState

variable {q r t : RunState} {places others : Location → Prop}

/-- A state is a later state of itself. -/
theorem leads_refl (q : RunState) (places : Location → Prop) : q.Leads places q :=
  ⟨rfl, Store.changes_refl _ _⟩

/-- A log that is kept at a place is kept there ever after. -/
theorem Leads.logs_at (h : q.Leads places r) {l : Location} (hlog : q.LogsAt l) : r.LogsAt l := by
  obtain ⟨channel, hchannel, path, hfile, hlocate⟩ := hlog
  refine ⟨channel, ?_, path, hfile, h.store.locate hlocate⟩
  rwa [h.channel]

/-- Later states follow each other. -/
theorem Leads.trans (h : q.Leads places r) (hnext : r.Leads places t) : q.Leads places t := by
  refine ⟨hnext.channel.trans h.channel, Store.Changes.trans (h.store.mono ?_) hnext.store⟩
  intro l hl
  exact hl.imp_right hnext.logs_at

/-- Files put at some places are put at more places. -/
theorem Leads.mono (h : q.Leads places r) (hsub : ∀ l, places l → others l) : q.Leads others r :=
  ⟨h.channel, h.store.mono fun l => Or.imp_left (hsub l)⟩

/-- A report puts at most a line into the file of the log. -/
theorem leads_report (q : RunState) (places : Location → Prop) (e : Event) :
    q.Leads places (q.report e) := by
  obtain ⟨hchannel, hkept | ⟨channel, hmem, path, line, hfile, happend⟩⟩ :=
    q.workspace.report_cases e
  · refine ⟨hchannel, ?_⟩
    show q.workspace.store.Changes _ (q.workspace.report e).store
    rw [hkept]
    exact Store.changes_refl _ _
  · obtain ⟨l, old, hlocate, hentry, hput⟩ := Store.alter_ok happend
    have hchanges := Store.changes_put_file hentry (old ++ line.toUTF8)
    rw [← hput] at hchanges
    refine ⟨hchannel, hchanges.mono ?_⟩
    rintro _ rfl
    exact .inr ⟨channel, hchannel ▸ hmem, path, hfile, hchanges.locate hlocate⟩

/-- Reports put lines into the file of the log only. -/
theorem leads_report_all (q : RunState) (places : Location → Prop) (events : List Event) :
    q.Leads places (q.reportAll events) :=
  @report_all_keeps (q.Leads places ·) (fun r e h => h.trans (leads_report r places e)) q
    (leads_refl q places) events

/-- Beginning a file puts at most a line into the file of the log. -/
theorem leads_start (q : RunState) (places : Location → Prop) (source : String) (output : Path) :
    q.Leads places (q.start source output) := by
  have h := leads_report q places (.building source output.toString)
  exact ⟨h.channel, h.store⟩

/-- Changes of the store make a later state. -/
theorem leads_with_store {s : Store} (h : q.workspace.store.Changes places s) :
    q.Leads places (q.withStore s) :=
  ⟨rfl, h.mono fun _ => .inl⟩

end RunState

/-- A module that a run writes. -/
structure Delivery where
  /-- The file that it is compiled from. -/
  source : String
  text : String
  place : Location

/-- A delivery behind which no other goes to the same place. -/
def Delivery.IsLast (d : Delivery) (deliveries : List Delivery) : Prop :=
  ∃ before after, deliveries = before ++ d :: after ∧ ∀ e ∈ after, e.place ≠ d.place

/-- Of the deliveries to one place, there is a last one. -/
theorem Delivery.exists_last {d : Delivery} {deliveries : List Delivery} (h : d ∈ deliveries) :
    ∃ e : Delivery, e.IsLast deliveries ∧ e.place = d.place := by
  induction deliveries generalizing d with
  | nil => cases h
  | cons first rest ih =>
      by_cases hlater : ∃ e ∈ rest, e.place = d.place
      · obtain ⟨e, he, hsame⟩ := hlater
        obtain ⟨last, ⟨before, after, rfl, hlast⟩, hplace⟩ := ih he
        exact ⟨last, ⟨first :: before, after, rfl, hlast⟩, hplace.trans hsame⟩
      · rcases List.mem_cons.mp h with rfl | hd
        · exact ⟨d, ⟨[], rest, rfl, fun e he hsame => hlater ⟨e, he, hsame⟩⟩, rfl⟩
        · exact absurd ⟨d, hd, rfl⟩ hlater

namespace Builder

variable {b : Builder} {reader : SourceReader} {source : String} {rest sources : List String}
  {q r t : RunState} {d : Delivery} {deliveries : List Delivery}

/-! ## Single files -/

/-- A module is put at its place. -/
structure Puts (b : Builder) (reader : SourceReader) (q : RunState) (d : Delivery)
    (r : RunState) : Prop where
  compiled : b.CompilesTo reader q.workspace.store d.source d.text
  leads : q.Leads (· = d.place) r
  located : b.placeOf r.workspace.store d.source = .ok d.place
  written : r.workspace.store.entryAt? d.place = some (.file d.text.toUTF8)

/-- Building a file fails and puts no module, or it puts the module of the file at its place. -/
theorem build_file_cases (b : Builder) (reader : SourceReader) (source : String) (q : RunState) :
    (∃ failure r, (b.buildFile reader source).run q = (.ok (.error failure), r) ∧
      ∀ places, q.Leads places r) ∨
    ∃ d r, (b.buildFile reader source).run q = (.ok (.ok ()), r) ∧ d.source = source ∧
      b.Puts reader q d r := by
  cases houtcome : b.outcome reader source q.workspace.store with
  | error failure =>
      obtain ⟨events, hrun⟩ := b.run_build_file_of_error reader source houtcome
      exact .inl ⟨failure, _, hrun, fun places => q.leads_report_all places events⟩
  | ok text =>
      obtain ⟨events, hrun⟩ := b.run_build_file_of_ok reader source houtcome
      rcases StoreWork.write_with_parents_cases (b.outputPath (.ofString source)) text.toUTF8
          (q.reportAll events).workspace.store with
        ⟨e, s, hwritten, hchanges⟩ | ⟨l, s, hwritten, hchanges, hlocate, hentry⟩
      · refine .inl ⟨_, _, hrun _ _ hwritten, fun places => ?_⟩
        exact (q.leads_report_all places events).trans
          (RunState.leads_with_store (hchanges.mono fun _ => False.elim))
      · refine .inr ⟨⟨source, text, l⟩, _, hrun _ _ hwritten, rfl, ?_⟩
        exact ⟨compiles_to_of_outcome houtcome,
          (q.leads_report_all _ events).trans (RunState.leads_with_store hchanges), hlocate, hentry⟩

/-- A step of a run puts no module, and a result of it is a failure, or it puts the module of its
file and says that the file is built. -/
theorem run_file_cases (b : Builder) (reader : SourceReader) (source : String) (q : RunState) :
    (∃ outcome r, (b.runFile reader source).run q = (outcome, r) ∧ (∀ places, q.Leads places r) ∧
      ∀ result, outcome = .ok result → result.succeeded = false) ∨
    ∃ d r, (b.runFile reader source).run q =
        (.ok ⟨source, b.outputPath (.ofString source), none⟩, r) ∧ d.source = source ∧
      b.Puts reader (q.start source (b.outputPath (.ofString source))) d r := by
  rcases b.build_file_cases reader source (q.start source (b.outputPath (.ofString source))) with
    ⟨failure, r, hbuild, hleads⟩ | ⟨d, r, hbuild, hsource, hput⟩
  · have hfile := b.run_file_of_build reader source hbuild
    have hkept := fun places => (q.leads_start places source _).trans (hleads places)
    cases hreport : failure.report? with
    | none =>
        rw [run_settle_of_unreported b source hreport] at hfile
        exact .inl ⟨_, _, hfile, hkept, nofun⟩
    | some text =>
        rw [run_settle_of_reported b source hreport] at hfile
        refine .inl ⟨_, _, hfile, fun places => (hkept places).trans (r.leads_report places _), ?_⟩
        rintro _ ⟨⟩
        rfl
  · exact .inr ⟨d, r, b.run_file_of_build reader source hbuild, hsource, hput⟩

/-! ## Runs -/

/-- A run reaches a file: the files before it are built, and the file is begun. -/
def Reaches (b : Builder) (reader : SourceReader) (sources : List String) (q : RunState)
    (source : String) (s : RunState) : Prop :=
  ∃ before after results r, sources = before ++ source :: after ∧
    (b.run reader before).run q = (.ok results, r) ∧
    s = r.start source (b.outputPath (.ofString source))

/-- What is reached behind a first file, the run reaches. -/
theorem Reaches.behind {result : FileResult} {x : String} {s : RunState}
    (h : b.Reaches reader rest r x s) (hfile : (b.runFile reader source).run q = (.ok result, r)) :
    b.Reaches reader (source :: rest) q x s := by
  obtain ⟨before, after, results, u, rfl, hrun, hs⟩ := h
  exact ⟨source :: before, after, result :: results, u, rfl, run_cons_of_ok hfile hrun, hs⟩

/-- What a run over some files delivers. -/
structure Delivers (b : Builder) (reader : SourceReader) (sources : List String) (q : RunState)
    (deliveries : List Delivery) (t : RunState) : Prop where
  /-- Each file is compiled when the run reaches it, and only modules and the log are written
  then. -/
  compiled : ∀ d ∈ deliveries, ∃ s, b.Reaches reader sources q d.source s ∧
    b.CompilesTo reader s.workspace.store d.source d.text ∧
    s.Leads (· ∈ deliveries.map Delivery.place) t
  located : ∀ d ∈ deliveries, b.placeOf t.workspace.store d.source = .ok d.place
  written : ∀ d : Delivery, d.IsLast deliveries → ¬ t.LogsAt d.place →
    t.workspace.store.entryAt? d.place = some (.file d.text.toUTF8)
  leads : q.Leads (· ∈ deliveries.map Delivery.place) t

/-- A run in which nothing is put delivers nothing. -/
theorem delivers_nil (h : ∀ places, q.Leads places t) : b.Delivers reader sources q [] t where
  compiled := nofun
  located := nofun
  written := by
    rintro d ⟨before, after, hsplit, -⟩
    simp at hsplit
  leads := h _

/-- A run delivers what is delivered behind a first file that is not built. -/
theorem Delivers.behind {result : FileResult} (h : b.Delivers reader rest r deliveries t)
    (hfile : (b.runFile reader source).run q = (.ok result, r))
    (hleads : ∀ places, q.Leads places r) :
    b.Delivers reader (source :: rest) q deliveries t where
  compiled := by
    intro d hd
    obtain ⟨s, hreaches, hcompiled, hs⟩ := h.compiled d hd
    exact ⟨s, hreaches.behind hfile, hcompiled, hs⟩
  located := h.located
  written := h.written
  leads := (hleads _).trans h.leads

/-- A run delivers the module of a first file that is built, and what is delivered behind it. -/
theorem Delivers.cons {result : FileResult} (h : b.Delivers reader rest r deliveries t)
    (hfile : (b.runFile reader d.source).run q = (.ok result, r))
    (hput : b.Puts reader (q.start d.source (b.outputPath (.ofString d.source))) d r) :
    b.Delivers reader (d.source :: rest) q (d :: deliveries) t := by
  have hmore : ∀ l, l ∈ deliveries.map Delivery.place →
      l ∈ (d :: deliveries).map Delivery.place := fun _ => List.mem_cons_of_mem _
  have hfirst : (q.start d.source (b.outputPath (.ofString d.source))).Leads
      (· ∈ (d :: deliveries).map Delivery.place) t :=
    (hput.leads.mono fun _ hl => hl ▸ List.mem_cons_self).trans (h.leads.mono hmore)
  refine ⟨?_, ?_, ?_, (q.leads_start _ _ _).trans hfirst⟩
  · intro e he
    rcases List.mem_cons.mp he with rfl | he
    · exact ⟨_, ⟨[], rest, [], q, rfl, rfl, rfl⟩, hput.compiled, hfirst⟩
    · obtain ⟨s, hreaches, hcompiled, hs⟩ := h.compiled e he
      exact ⟨s, hreaches.behind hfile, hcompiled, hs.mono hmore⟩
  · intro e he
    rcases List.mem_cons.mp he with rfl | he
    · exact h.leads.store.locate hput.located
    · exact h.located e he
  · rintro e ⟨before, after, hsplit, hlast⟩ hlog
    cases before with
    | nil =>
        obtain ⟨rfl, rfl⟩ := List.cons.inj hsplit
        refine h.leads.store.file ?_ hput.written
        rintro (hplace | hlogs)
        · obtain ⟨e, he, hsame⟩ := List.mem_map.mp hplace
          exact hlast e he hsame
        · exact hlog hlogs
    | cons first before =>
        obtain ⟨rfl, rfl⟩ := List.cons.inj hsplit
        exact h.written e ⟨before, after, rfl, hlast⟩ hlog

/-- What a run gives behind a first file, it gives with the result of that in front. -/
theorem run_cons {result : FileResult}
    (hfile : (b.runFile reader source).run q = (.ok result, r)) :
    (b.run reader (source :: rest)).run q =
      (((b.run reader rest).run r).1.map (result :: ·), ((b.run reader rest).run r).2) := by
  cases hrun : (b.run reader rest).run r with
  | mk outcome t =>
      cases outcome with
      | error failure => exact run_cons_of_rest hfile hrun
      | ok results => exact run_cons_of_ok hfile hrun

/-- A value behind a function comes from a value before it. -/
theorem ok_of_map {ε α β : Type} {f : α → β} {x : Except ε α} {y : β} (h : x.map f = .ok y) :
    ∃ a, x = .ok a ∧ f a = y := by
  cases x with
  | error e => cases h
  | ok a => exact ⟨a, rfl, Except.ok.inj h⟩

/-- The files that a run says are built, each with the path of its module. -/
def built (results : List FileResult) : List (String × Path) :=
  (results.filter FileResult.succeeded).map fun result => (result.source, result.output)

/-- The files of a plan are those that it was made for. -/
theorem sources_plan (b : Builder) (sources : List String) :
    (b.plan sources).map Prod.fst = sources := by
  rw [plan, List.map_map]
  exact List.map_id sources

/-- A run delivers modules, also when a file ends it. When it completes, these are the modules of
the files that it says are built, in order. -/
theorem run_delivers_modules (b : Builder) (reader : SourceReader) (sources : List String)
    (q : RunState) :
    ∃ deliveries, b.Delivers reader sources q deliveries ((b.run reader sources).run q).2 ∧
      ∀ results, ((b.run reader sources).run q).1 = .ok results →
        built results = b.plan (deliveries.map Delivery.source) := by
  induction sources generalizing q with
  | nil =>
      refine ⟨[], delivers_nil q.leads_refl, ?_⟩
      rintro _ ⟨⟩
      rfl
  | cons source rest ih =>
      rcases b.run_file_cases reader source q with
        ⟨outcome, r, hfile, hleads, hfails⟩ | ⟨d, r, hfile, rfl, hput⟩
      · cases outcome with
        | error failure =>
            rw [run_cons_of_error hfile]
            exact ⟨[], delivers_nil hleads, nofun⟩
        | ok result =>
            obtain ⟨deliveries, hrest, hbuilt⟩ := ih r
            rw [run_cons hfile]
            refine ⟨deliveries, hrest.behind hfile hleads, fun results hresults => ?_⟩
            obtain ⟨later, hlater, rfl⟩ := ok_of_map hresults
            rw [built, List.filter_cons_of_neg (by simp [hfails result rfl])]
            exact hbuilt later hlater
      · obtain ⟨deliveries, hrest, hbuilt⟩ := ih r
        rw [run_cons hfile]
        refine ⟨d :: deliveries, hrest.cons hfile hput, fun results hresults => ?_⟩
        obtain ⟨later, hlater, rfl⟩ := ok_of_map hresults
        rw [built, List.filter_cons_of_pos rfl, List.map_cons, ← built, hbuilt later hlater,
          plan, plan, List.map_cons, List.map_cons]

/-- What a file is compiled to in a store, it is compiled to in every store where the same is
read. -/
theorem CompilesTo.of_read {s u : Store} {text : String} (h : b.CompilesTo reader s source text)
    (hread : ∀ content, s.read (.ofString source) = .ok content →
      u.read (.ofString source) = .ok content) : b.CompilesTo reader u source text := by
  obtain ⟨content, f, written, hcontent, hparse, hwritten, rfl⟩ := h
  exact ⟨content, f, written, hread content hcontent, hparse, hwritten, rfl⟩

/-- What is delivered last to a place is read at every path that leads there. -/
theorem Delivers.read (h : b.Delivers reader sources q deliveries t) {e : Delivery}
    (hlast : e.IsLast deliveries) (hplace : e.place = d.place) (hd : d ∈ deliveries)
    (hlog : ¬ t.LogsAt d.place) :
    t.workspace.store.read (b.outputPath (.ofString d.source)) = .ok e.text.toUTF8 := by
  have hwritten := h.written e hlast (by rwa [hplace])
  rw [hplace] at hwritten
  exact Store.read_of_entry (h.located d hd) hwritten

/-- What a file is compiled to in a store is its outcome there. -/
theorem CompilesTo.outcome {s : Store} {text : String} (h : b.CompilesTo reader s source text) :
    b.outcome reader source s = .ok text := by
  obtain ⟨content, f, written, hcontent, hparse, hwritten, rfl⟩ := h
  rw [outcome_eq, hcontent]
  simp only [result_compile_source, hparse, Except.bind, hwritten]
  rfl

/-- A file that is compiled is read at a path with a name. -/
theorem CompilesTo.named {s : Store} {text : String} (h : b.CompilesTo reader s source text) :
    (Path.ofString source).parts ≠ [] := by
  obtain ⟨content, -, -, hread, -⟩ := h
  exact Store.parts_ne_nil_of_read hread

/-- The files of deliveries have names. -/
theorem Delivers.named (h : b.Delivers reader sources q deliveries t) (hd : d ∈ deliveries) :
    (Path.ofString d.source).parts ≠ [] := by
  obtain ⟨s, -, hcompiled, -⟩ := h.compiled d hd
  exact hcompiled.named

/-- Each file that a completed run says is built has a module: the text that it is compiled to when
the run reaches it, and afterwards as well unless its own file was written by the run. The path of
the module leads to a place, and what can be read there is this text if no file behind it has its
module there. In any case it is the text of the last file with a module there. Only a log that is
kept at the place is an exception. Under plain settings, modules have one place if and only if their
files have one stem and their directories one place. There are no links in a store, so that different
places are different files. -/
theorem run_delivers (b : Builder) (reader : SourceReader) (sources : List String)
    {results : List FileResult} (hrun : (b.run reader sources).run q = (.ok results, r)) :
    ∃ deliveries : List Delivery,
      built results = b.plan (deliveries.map Delivery.source) ∧
      ∀ d ∈ deliveries,
        (∃ s, b.Reaches reader sources q d.source s ∧
          b.CompilesTo reader s.workspace.store d.source d.text) ∧
        ((∀ l, r.workspace.store.locate (.ofString d.source) = .ok l →
            l ∉ deliveries.map Delivery.place ∧ ¬ r.LogsAt l) →
          b.CompilesTo reader r.workspace.store d.source d.text) ∧
        b.placeOf r.workspace.store d.source = .ok d.place ∧
        (¬ r.LogsAt d.place →
          (d.IsLast deliveries → r.workspace.store.read (b.outputPath (.ofString d.source)) =
            .ok d.text.toUTF8) ∧
          ∃ e : Delivery, e.IsLast deliveries ∧ e.place = d.place ∧
            r.workspace.store.read (b.outputPath (.ofString d.source)) = .ok e.text.toUTF8) ∧
        (b.config.output.IsPlain → ∀ e ∈ deliveries, d.place = e.place ↔
          r.workspace.store.locate (b.moduleDirectory d.source) =
              r.workspace.store.locate (b.moduleDirectory e.source) ∧
            (Path.ofString d.source).stem = (Path.ofString e.source).stem) := by
  obtain ⟨deliveries, hdelivers, hbuilt⟩ := b.run_delivers_modules reader sources q
  rw [hrun] at hdelivers hbuilt
  refine ⟨deliveries, hbuilt results rfl, fun d hd => ?_⟩
  obtain ⟨s, hreaches, hcompiled, hs⟩ := hdelivers.compiled d hd
  refine ⟨⟨s, hreaches, hcompiled⟩, ?_, hdelivers.located d hd, ?_, ?_⟩
  · intro hsource
    refine hcompiled.of_read fun content hread => hs.store.read hread ?_
    intro l hlocate hplace
    obtain ⟨hnone, hlog⟩ := hsource l (hs.store.locate hlocate)
    exact hplace.elim hnone hlog
  · intro hlog
    obtain ⟨e, hlast, hplace⟩ := Delivery.exists_last hd
    exact ⟨fun hown => hdelivers.read hown rfl hd hlog,
      e, hlast, hplace, hdelivers.read hlast hplace hd hlog⟩
  · intro hplain e he
    exact same_place_iff hplain hcompiled.named (hdelivers.named he) (hdelivers.located d hd)
      (hdelivers.located e he)

/-- A store with two files of one name. -/
def twinStore : Store :=
  ((((Store.empty.put ["a"] .directory).put ["b"] .directory).put ["out"] .directory).put
    ["a", "x.ts"] (.file "type A = string;\n".toUTF8)).put
    ["b", "x.ts"] (.file "type B = number;\n".toUTF8)

/-- The run over both files. -/
def twinRun (b : Builder) : Except Failure (List FileResult) × RunState :=
  (b.run Source.read ["a/x.ts", "b/x.ts"]).run ⟨.ofStore twinStore, []⟩

/-- Without a directory for modules, both modules are there. -/
theorem run_delivers_twins :
    (twinRun (ofConfig {})).1 = .ok [⟨"a/x.ts", ⟨"", ["a", "x-ti.ts"]⟩, none⟩,
        ⟨"b/x.ts", ⟨"", ["b", "x-ti.ts"]⟩, none⟩] ∧
      ∀ x ∈ ["a/x.ts", "b/x.ts"], ∃ text,
        (ofConfig {}).CompilesTo Source.read (twinRun (ofConfig {})).2.workspace.store x text ∧
        (twinRun (ofConfig {})).2.workspace.store.read ((ofConfig {}).outputPath (.ofString x)) =
          .ok text.toUTF8 := by
  have hresults : (twinRun (ofConfig {})).1 = .ok [⟨"a/x.ts", ⟨"", ["a", "x-ti.ts"]⟩, none⟩,
      ⟨"b/x.ts", ⟨"", ["b", "x-ti.ts"]⟩, none⟩] := by decide +kernel
  have hchannel : (twinRun (ofConfig {})).2.workspace.log.channel.isNone = true := by
    decide +kernel
  have hplaces : ∀ x ∈ ["a", "b"],
      (twinRun (ofConfig {})).2.workspace.store.locate (.ofString (x ++ "/x.ts")) =
        .ok [x, "x.ts"] ∧
      (ofConfig {}).placeOf (twinRun (ofConfig {})).2.workspace.store (x ++ "/x.ts") =
        .ok [x, "x-ti.ts"] := by decide +kernel
  refine ⟨hresults, ?_⟩
  generalize hrun : twinRun (ofConfig {}) = ran at *
  obtain ⟨outcome, r⟩ := ran
  obtain rfl : outcome = _ := hresults
  obtain ⟨deliveries, hbuilt, hall⟩ := run_delivers (ofConfig {}) Source.read _ hrun
  have hlog := r.not_logs_at hchannel
  have hsources : ["a/x.ts", "b/x.ts"] = deliveries.map Delivery.source :=
    (congrArg (List.map Prod.fst) hbuilt).trans (sources_plan _ _)
  obtain ⟨d, later, rfl, hd, hlater⟩ := List.map_eq_cons_iff.mp hsources.symm
  obtain ⟨e, none, rfl, he, hnone⟩ := List.map_eq_cons_iff.mp hlater
  obtain rfl := List.map_eq_nil_iff.mp hnone
  obtain ⟨-, hcompiled, hplace, hread, -⟩ := hall d (by simp)
  obtain ⟨-, hcompiled', hplace', hread', -⟩ := hall e (by simp)
  rw [hd] at hcompiled hplace hread
  rw [he] at hcompiled' hplace' hread'
  obtain ⟨hsource, hmodule⟩ := hplaces "a" (by simp)
  obtain ⟨hsource', hmodule'⟩ := hplaces "b" (by simp)
  have hat : d.place = ["a", "x-ti.ts"] := Except.ok.inj (hplace.symm.trans hmodule)
  have hat' : e.place = ["b", "x-ti.ts"] := Except.ok.inj (hplace'.symm.trans hmodule')
  have hkept : ∀ directory, [directory, "x.ts"] ∉ [d, e].map Delivery.place := by
    simp [hat, hat']
  intro x hx
  rcases List.mem_pair.mp hx with rfl | rfl
  · refine ⟨d.text, hcompiled fun l hl => ?_, (hread (hlog _)).1 ⟨[], [e], rfl, ?_⟩⟩
    · obtain rfl := Except.ok.inj (hsource.symm.trans hl)
      exact ⟨hkept "a", hlog _⟩
    · simp [hat, hat']
  · refine ⟨e.text, hcompiled' fun l hl => ?_, (hread' (hlog _)).1 ⟨[d], [], rfl, nofun⟩⟩
    obtain rfl := Except.ok.inj (hsource'.symm.trans hl)
    exact ⟨hkept "b", hlog _⟩

/-- With a directory for modules, both files are built, and the one place of their modules does not
hold the module of each. -/
theorem module_replaced :
    Config.ofEntries [(.text "output", .map [(.text "out_dir", .text "out")])] =
        .ok outBuilder.config ∧
      (twinRun outBuilder).1 = .ok [⟨"a/x.ts", ⟨"", ["out", "x-ti.ts"]⟩, none⟩,
        ⟨"b/x.ts", ⟨"", ["out", "x-ti.ts"]⟩, none⟩] ∧
      ¬ ∀ x ∈ ["a/x.ts", "b/x.ts"], ∃ text,
        outBuilder.CompilesTo Source.read (twinRun outBuilder).2.workspace.store x text ∧
        (twinRun outBuilder).2.workspace.store.read ⟨"", ["out", "x-ti.ts"]⟩ =
          .ok text.toUTF8 := by
  have hdiffer : outBuilder.outcome Source.read "a/x.ts" (twinRun outBuilder).2.workspace.store ≠
      outBuilder.outcome Source.read "b/x.ts" (twinRun outBuilder).2.workspace.store := by
    decide +kernel
  refine ⟨by decide +kernel, by decide +kernel, fun hall => hdiffer ?_⟩
  obtain ⟨text, htext, hread⟩ := hall "a/x.ts" (by simp)
  obtain ⟨other, hother, hread'⟩ := hall "b/x.ts" (by simp)
  obtain rfl : text = other :=
    String.toByteArray_inj.mp (Except.ok.inj (hread.symm.trans hread'))
  rw [htext.outcome, hother.outcome]

end Builder

end TypeSuite
