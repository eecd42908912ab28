import TypeSuite.Proofs.Build.Deliveries

/-!
# Files behind a run

A run changes a file only by writing to it: a module that it delivers, or the log. `run_keeps_files`
says so for every file that can be read before the run, its sources among them, and for runs that
complete and runs that a file ends.
-/

namespace TypeSuite

namespace Builder

variable {b : Builder} {reader : SourceReader} {sources : List String} {q t : RunState}
  {deliveries : List Delivery} {p : Path} {l : Location} {content : ByteArray}

/-- A file is kept unless a module is delivered to it or the log is kept in it. -/
theorem Delivers.keeps (h : b.Delivers reader sources q deliveries t)
    (hread : q.workspace.store.read p = .ok content) (hlocate : q.workspace.store.locate p = .ok l)
    (hfree : ∀ d ∈ deliveries, d.place ≠ l) (hlog : ¬ t.LogsAt l) :
    t.workspace.store.read p = .ok content := by
  refine h.leads.store.read hread fun k hk hplace => ?_
  obtain rfl := Except.ok.inj (hlocate.symm.trans hk)
  rcases hplace with hmodule | hlogs
  · obtain ⟨d, hd, hsame⟩ := List.mem_map.mp hmodule
    exact hfree d hd hsame
  · exact hlog hlogs

/-- A run leaves every file as it was unless a module is delivered to it or the log is kept in it.
The modules are those of sources that the run reaches and compiles, at the places that their paths
lead to, and in a run that completes they are the modules of the files that it says are built. A
file that modules are delivered to holds the last of them. Under plain settings, a module is
delivered to a file if and only if the file has its name and lies in its directory; this holds since
there are no links in a store. -/
theorem run_keeps_files (b : Builder) (reader : SourceReader) (sources : List String)
    {outcome : Except Failure (List FileResult)} {r : RunState}
    (hrun : (b.run reader sources).run q = (outcome, r)) :
    ∃ deliveries : List Delivery,
      (∀ d ∈ deliveries, b.placeOf r.workspace.store d.source = .ok d.place ∧
        ∃ s, b.Reaches reader sources q d.source s ∧
          b.CompilesTo reader s.workspace.store d.source d.text) ∧
      (∀ results, outcome = .ok results → built results = b.plan (deliveries.map Delivery.source)) ∧
      ∀ p l content, q.workspace.store.read p = .ok content →
        q.workspace.store.locate p = .ok l →
        r.workspace.store.locate p = .ok l ∧
        (¬ r.LogsAt l →
          ((∀ d ∈ deliveries, d.place ≠ l) → r.workspace.store.read p = .ok content) ∧
          ∀ d : Delivery, d.IsLast deliveries → d.place = l →
            r.workspace.store.read p = .ok d.text.toUTF8) ∧
        (b.config.output.IsPlain → p.name ≠ ".." → ∀ d ∈ deliveries, d.place = l ↔
          r.workspace.store.locate (b.moduleDirectory d.source) =
              r.workspace.store.locate p.parent ∧ b.moduleName d.source = p.name) := by
  obtain ⟨deliveries, hdelivers, hbuilt⟩ := b.run_delivers_modules reader sources q
  rw [hrun] at hdelivers hbuilt
  refine ⟨deliveries, fun d hd => ?_, hbuilt, fun p l content hread hlocate => ?_⟩
  · obtain ⟨s, hreaches, hcompiled, -⟩ := hdelivers.compiled d hd
    exact ⟨hdelivers.located d hd, s, hreaches, hcompiled⟩
  · have hlater := hdelivers.leads.store.locate hlocate
    refine ⟨hlater, fun hlog => ⟨fun hfree => hdelivers.keeps hread hlocate hfree hlog, ?_⟩, ?_⟩
    · rintro d hlast rfl
      exact Store.read_of_entry hlater (hdelivers.written d hlast hlog)
    · intro hplain hname d hd
      exact place_of_eq_iff hplain (hdelivers.named hd) (hdelivers.located d hd) hlater
        ⟨Store.parts_ne_nil_of_read hread, hname⟩

/-- With a directory for modules, both files are as they were. -/
theorem run_keeps_files_twins :
    (twinRun outBuilder).1.isOk = true ∧ ∀ x ∈ ["a/x.ts", "b/x.ts"],
      (twinStore.read (.ofString x)).isOk = true ∧
      (twinRun outBuilder).2.workspace.store.read (.ofString x) =
        twinStore.read (.ofString x) := by
  have hresults : (twinRun outBuilder).1 = .ok [⟨"a/x.ts", ⟨"", ["out", "x-ti.ts"]⟩, none⟩,
      ⟨"b/x.ts", ⟨"", ["out", "x-ti.ts"]⟩, none⟩] := by decide +kernel
  have hmodules : ∀ x ∈ ["a/x.ts", "b/x.ts"],
      outBuilder.placeOf (twinRun outBuilder).2.workspace.store x = .ok ["out", "x-ti.ts"] := by
    decide +kernel
  have hchannel : (twinRun outBuilder).2.workspace.log.channel.isNone = true := by decide +kernel
  have hfiles : ∀ x ∈ ["a/x.ts", "b/x.ts"], (twinStore.read (.ofString x)).isOk = true ∧
      ∃ l ∈ [["a", "x.ts"], ["b", "x.ts"]], twinStore.locate (.ofString x) = .ok l := by
    decide +kernel
  generalize hrun : twinRun outBuilder = ran at *
  obtain ⟨outcome, r⟩ := ran
  obtain rfl : outcome = _ := hresults
  obtain ⟨deliveries, hplaced, hbuilt, hall⟩ := run_keeps_files outBuilder Source.read _ hrun
  have hsources : ["a/x.ts", "b/x.ts"] = deliveries.map Delivery.source :=
    (congrArg (List.map Prod.fst) (hbuilt _ rfl)).trans (sources_plan _ _)
  have hplace : ∀ d ∈ deliveries, d.place = ["out", "x-ti.ts"] := by
    intro d hd
    have hmodule := hmodules d.source (hsources ▸ List.mem_map_of_mem hd)
    exact Except.ok.inj ((hplaced d hd).1.symm.trans hmodule)
  refine ⟨rfl, fun x hx => ?_⟩
  obtain ⟨hok, l, hl, hlocate⟩ := hfiles x hx
  refine ⟨hok, ?_⟩
  cases hread : twinStore.read (.ofString x) with
  | error fault =>
      rw [hread] at hok
      cases hok
  | ok content =>
      obtain ⟨-, hkept, -⟩ := hall _ l content hread hlocate
      refine (hkept (r.not_logs_at hchannel l)).1 fun d hd hsame => ?_
      rw [← hsame, hplace d hd] at hl
      exact absurd hl (by decide)

/-- A builder that gives a module the name of its file. -/
def bareBuilder : Builder :=
  ofConfig { output := { suffix := "" } }

/-- A store with a file, and a file under the name of its module. -/
def moduleStore : Store :=
  (Store.empty.put ["x.ts"] (.file "type A = string;\n".toUTF8)).put
    ["x-ti.ts"] (.file "type B = number;\n".toUTF8)

/-- A run over files of the store. -/
def moduleRun (b : Builder) (sources : List String) :
    Except Failure (List FileResult) × RunState :=
  (b.run Source.read sources).run ⟨.ofStore moduleStore, []⟩

/-- A file is replaced by its own module when the suffix is empty, and by the module of another one
of the run when it has that name. Both configurations are valid. -/
theorem file_replaced :
    Config.ofEntries [(.text "output", .map [(.text "suffix", .text "")])] =
        .ok bareBuilder.config ∧
      (moduleRun bareBuilder ["x.ts"]).1 = .ok [⟨"x.ts", ⟨"", ["x.ts"]⟩, none⟩] ∧
      (moduleRun bareBuilder ["x.ts"]).2.workspace.store.read (.ofString "x.ts") ≠
        moduleStore.read (.ofString "x.ts") ∧
      Config.ofEntries [] = .ok (ofConfig {}).config ∧
      (moduleRun (ofConfig {}) ["x-ti.ts", "x.ts"]).1 = .ok
        [⟨"x-ti.ts", ⟨"", ["x-ti-ti.ts"]⟩, none⟩, ⟨"x.ts", ⟨"", ["x-ti.ts"]⟩, none⟩] ∧
      (moduleRun (ofConfig {}) ["x-ti.ts", "x.ts"]).2.workspace.store.read (.ofString "x-ti.ts") ≠
        moduleStore.read (.ofString "x-ti.ts") := by
  decide +kernel

end Builder

end TypeSuite
