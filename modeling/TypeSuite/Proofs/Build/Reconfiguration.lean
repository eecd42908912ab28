import TypeSuite.Proofs.Build.Bindings
import TypeSuite.Proofs.Config.Assignment
import TypeSuite.Proofs.Text.Reading

/-!
# Builders whose configuration changes

The configuration of a builder may be changed between compilations. `compile_after_changes` says
that each of them has the outcome that a new builder with the current configuration would have, but
for the runtime module, which stays the one that the builder was made with.
-/

namespace TypeSuite

/-- Texts with the same quoted form are the same. -/
theorem Text.eq_of_quote_eq {a b : String} (h : quote a = quote b) : a = b := by
  have ha := read_quoted_quote a []
  rw [h, read_quoted_quote, Option.some.injEq, Prod.mk.injEq] at ha
  exact ha.1.symm

/-- The first lines of a module tell its runtime module. -/
theorem eq_of_import_lines_eq {a b : String} (h : importLines a = importLines b) : a = b := by
  have hquoted := (String.append_left_inj _).mp ((String.append_left_inj _).mp h)
  exact Text.eq_of_quote_eq ((String.append_right_inj _).mp hquoted)

/-- A module has no written form, or one in which its runtime module is in the first lines only. -/
theorem CheckerModule.render_cases (m : CheckerModule) :
    (∃ e, ∀ runtimeModule, m.render runtimeModule = .error e) ∨
      ∃ rest, ∀ runtimeModule,
        m.render runtimeModule = .ok (importLines runtimeModule ++ rest) := by
  cases hblocks : m.declarations.mapM (·.render) with
  | error e =>
      refine .inl ⟨e, fun runtimeModule => ?_⟩
      rw [render, hblocks]
      rfl
  | ok blocks =>
      refine .inr ⟨"\n\n".intercalate blocks ++ "\n\n" ++ suiteLines (m.manifest.map (·.name)), ?_⟩
      intro runtimeModule
      rw [render, hblocks]
      simp only [String.append_assoc]
      rfl

namespace Builder

/-- What a builder makes of a source. -/
def compiled (b : Builder) (reader : SourceReader) (source : ByteArray) (fileName : String) :
    Except Failure String :=
  ((b.compileSource reader source fileName).run []).1

/-- The settings of a compilation do not depend on the runtime module. -/
theorem settings_eq {σ : Type} (c : Config) (runtimeModule : String) (resolver : Resolver σ) :
    settings ⟨c, runtimeModule⟩ resolver = (ofConfig c).settings resolver :=
  rfl

/-- A source fails with every runtime module, or it becomes a text with the runtime module in its
first lines only. -/
theorem compiled_cases (c : Config) (reader : SourceReader) (source : ByteArray)
    (fileName : String) :
    (∃ failure, ∀ runtimeModule,
      compiled ⟨c, runtimeModule⟩ reader source fileName = .error failure) ∨
    ∃ rest, ∀ runtimeModule, compiled ⟨c, runtimeModule⟩ reader source fileName =
      .ok (c.output.header ++ (importLines runtimeModule ++ rest)) := by
  simp only [compiled, result_compile_source, result_compile_file, settings_eq]
  cases ((Build.parse reader source fileName).run []).1 with
  | error failure => exact .inl ⟨failure, fun _ => rfl⟩
  | ok f =>
      simp only [Except.bind]
      cases ((Compile.file ((ofConfig c).settings Resolver.declared) f).run (.start [])).1 with
      | error e => exact .inl ⟨.compile e, fun _ => rfl⟩
      | ok m =>
          rcases m.render_cases with ⟨e, hrender⟩ | ⟨rest, hrender⟩
          · refine .inl ⟨.render e, fun runtimeModule => ?_⟩
            simp only [Except.mapError, hrender]
            rfl
          · refine .inr ⟨rest, fun runtimeModule => ?_⟩
            simp only [Except.mapError, hrender]
            rfl

/-- A source becomes the same with two runtime modules exactly if they are the same or it becomes
nothing. -/
theorem compiled_eq_iff {c : Config} {reader : SourceReader} {source : ByteArray}
    {fileName first second : String} :
    compiled ⟨c, first⟩ reader source fileName = compiled ⟨c, second⟩ reader source fileName ↔
      second = first ∨ ∃ failure, compiled ⟨c, second⟩ reader source fileName = .error failure := by
  constructor
  · intro h
    rcases compiled_cases c reader source fileName with ⟨failure, hfails⟩ | ⟨rest, htext⟩
    · exact .inr ⟨failure, hfails second⟩
    · rw [htext, htext, Except.ok.injEq] at h
      have hlines := (String.append_left_inj _).mp ((String.append_right_inj _).mp h)
      exact .inl (eq_of_import_lines_eq hlines).symm
  · rintro (rfl | ⟨failure, hfailure⟩)
    · rfl
    · rcases compiled_cases c reader source fileName with ⟨other, hfails⟩ | ⟨rest, htext⟩
      · rw [hfails, hfails]
      · rw [htext] at hfailure
        cases hfailure

end Builder

/-! ## Requests -/

/-- A request to a builder. -/
inductive Request where
  /-- Its configuration is replaced. -/
  | configure (config : Config)
  /-- Something is assigned to a place of its configuration. -/
  | assign (a : Assignment)
  /-- A source is compiled. -/
  | compile (source : ByteArray) (fileName : String)

namespace Request

/-- A request that does not spoil a configuration. -/
inductive IsValid : Request → Prop where
  | configure {config : Config} : config.IsValid → IsValid (.configure config)
  | assign {a : Assignment} : (∀ f, a.IsDirect f → f.Holds a.value) → IsValid (.assign a)
  | compile (source : ByteArray) (fileName : String) : IsValid (.compile source fileName)

/-- Whether a request changes the configuration. -/
def isChange : Request → Bool
  | .configure _ => true
  | .assign _ => true
  | .compile .. => false

end Request

namespace Builder

variable {reader : SourceReader} {b : Builder} {requests : List Request} {c : Config}

/-- What a builder does on a request. It answers those to compile. -/
def request (reader : SourceReader) : Request → StateM Builder (Option (Except Failure String))
  | .configure config => do
    modify fun b => { b with config }
    return none
  | .assign a => do
    modify fun b => { b with config := b.config.assigned a }
    return none
  | .compile source fileName => do
    let b ← get
    return some (b.compiled reader source fileName)

/-- What becomes of a new builder with a configuration on requests one after the other: its answers
and what it is at the end. -/
def session (reader : SourceReader) (c : Config) (requests : List Request) :
    List (Option (Except Failure String)) × Builder :=
  (requests.mapM (request reader)).run (ofConfig c)

/-- No request changes the runtime module. -/
theorem run_request_runtime_module (r : Request) (b : Builder) :
    ((request reader r).run b).2.runtimeModule = b.runtimeModule := by
  cases r <;> rfl

/-- A valid request leaves a configuration valid. -/
theorem run_request_is_valid {r : Request} (hr : r.IsValid) (hb : b.config.IsValid) :
    ((request reader r).run b).2.config.IsValid := by
  cases hr with
  | configure hconfig => exact hconfig
  | assign ha => exact (Settings.of_config_assigned hb ha).2
  | compile source fileName => exact hb

/-- The runtime module of a builder stays as it is on any requests. -/
theorem run_requests_runtime_module (requests : List Request) (b : Builder) :
    ((requests.mapM (request reader)).run b).2.runtimeModule = b.runtimeModule := by
  induction requests generalizing b with
  | nil => rfl
  | cons r rest ih => rw [Step.run_map_m_cons, ih, run_request_runtime_module]

/-- The configuration of a builder stays valid on valid requests. -/
theorem run_requests_is_valid (hrequests : ∀ r ∈ requests, r.IsValid) (hb : b.config.IsValid) :
    ((requests.mapM (request reader)).run b).2.config.IsValid := by
  induction requests generalizing b with
  | nil => exact hb
  | cons r rest ih =>
      obtain ⟨hr, hrest⟩ := List.forall_mem_cons.mp hrequests
      rw [Step.run_map_m_cons]
      exact ih hrest (run_request_is_valid hr hb)

/-- Without the compilations among them, requests leave a builder as it is with them. -/
theorem run_requests_changes (requests : List Request) (b : Builder) :
    (((requests.filter (·.isChange)).mapM (request reader)).run b).2 =
      ((requests.mapM (request reader)).run b).2 := by
  induction requests generalizing b with
  | nil => rfl
  | cons r rest ih =>
      cases r with
      | configure config =>
          rw [List.filter_cons_of_pos rfl, Step.run_map_m_cons, Step.run_map_m_cons]
          exact ih _
      | assign a =>
          rw [List.filter_cons_of_pos rfl, Step.run_map_m_cons, Step.run_map_m_cons]
          exact ih _
      | compile source fileName =>
          rw [List.filter_cons_of_neg Bool.false_ne_true, Step.run_map_m_cons]
          exact ih b

/-- On valid requests to a new builder with a valid configuration, each source that is compiled has
the outcome that another new builder would have with the configuration of that moment, but with the
runtime module of the first configuration. Only the changes before it count for that configuration,
and it is valid. Hence the outcome is that of the configuration itself exactly if its runtime module
is the first one or the source becomes nothing with it. -/
theorem compile_after_changes (hc : c.IsValid) (hrequests : ∀ r ∈ requests, r.IsValid)
    (reader : SourceReader) {i : Nat} {source : ByteArray} {fileName : String}
    (hcompile : requests[i]? = some (.compile source fileName)) :
    let current := (session reader c ((requests.take i).filter (·.isChange))).2.config
    let kept := { current with compiler.runtimeModule := c.compiler.runtimeModule }
    let answer := (session reader c requests).1[i]?
    current = (session reader c (requests.take i)).2.config ∧ current.IsValid ∧
      answer = some (some ((ofConfig kept).compiled reader source fileName)) ∧
      (answer = some (some ((ofConfig current).compiled reader source fileName)) ↔
        current.compiler.runtimeModule = c.compiler.runtimeModule ∨
          ∃ failure, (ofConfig current).compiled reader source fileName = .error failure) := by
  intro current kept answer
  have hcurrent : current = (session reader c (requests.take i)).2.config :=
    congrArg Builder.config (run_requests_changes (requests.take i) (ofConfig c))
  have hvalid : current.IsValid := by
    rw [hcurrent]
    exact run_requests_is_valid (fun r hr => hrequests r (List.mem_of_mem_take hr)) hc
  have hbuilder : (session reader c (requests.take i)).2 = ⟨current, c.compiler.runtimeModule⟩ := by
    rw [hcurrent]
    exact congrArg (Builder.mk _) (run_requests_runtime_module (requests.take i) (ofConfig c))
  have hanswer : answer = some (some
      (compiled ⟨current, c.compiler.runtimeModule⟩ reader source fileName)) := by
    rw [← hbuilder]
    exact Step.run_map_m_at hcompile (ofConfig c)
  refine ⟨hcurrent, hvalid, hanswer, ?_⟩
  rw [hanswer, Option.some.injEq, Option.some.injEq]
  exact compiled_eq_iff

/-- A header that is assigned is that of the next module, while a runtime module is not. -/
theorem compile_after_changes_header :
    let reader : SourceReader := fun _ => letterTree
    let source := "interface A \x7b\x7d".toUTF8
    let requests : List Request :=
      [.assign ⟨["compiler", "runtime_module"], .text "checks"⟩,
        .assign ⟨["output", "header"], .text "// checks\n"⟩, .compile source "a.ts"]
    Config.IsValid {} ∧ (∀ r ∈ requests, r.IsValid) ∧
      requests[2]? = some (.compile source "a.ts") ∧
      (session reader {} requests).1[2]? = some (some
        ((ofConfig { output := { header := "// checks\n" } }).compiled reader source "a.ts")) := by
  intro reader source requests
  have hc : Config.IsValid {} := Config.default_is_valid
  have hruntime : Assignment.IsDirect ⟨["compiler", "runtime_module"], .text "checks"⟩
      .runtimeModule := rfl
  have hheader : Assignment.IsDirect ⟨["output", "header"], .text "// checks\n"⟩ .header := rfl
  have hchecks : Field.runtimeModule.Holds (.text "checks") := .text (by decide)
  have hrequests : ∀ r ∈ requests, r.IsValid :=
    List.forall_mem_cons.mpr ⟨.assign (hruntime.forall_holds hchecks),
      List.forall_mem_cons.mpr ⟨.assign (hheader.forall_holds (.text trivial)),
        List.forall_mem_cons.mpr ⟨.compile source "a.ts", nofun⟩⟩⟩
  have hcompile : requests[2]? = some (.compile source "a.ts") := rfl
  exact ⟨hc, hrequests, hcompile, (compile_after_changes hc hrequests reader hcompile).2.2.1⟩

/-- A runtime module that is assigned is not that of the next module, as it would be if the builder
were made anew. -/
theorem runtime_module_kept :
    let reader : SourceReader := fun _ => letterTree
    let source := "interface A \x7b\x7d".toUTF8
    let change : Assignment := ⟨["compiler", "runtime_module"], .text "checks"⟩
    let current : Config := { compiler := { runtimeModule := "checks" } }
    Config.IsValid {} ∧ (∀ f : Field, change.IsDirect f → f.Holds change.value) ∧
      (session reader {} [.assign change]).2.config = current ∧
      (session reader {} [.assign change, .compile source "a.ts"]).1[1]? ≠
        some (some ((ofConfig current).compiled reader source "a.ts")) := by
  intro reader source change current
  have hdirect : change.IsDirect .runtimeModule := rfl
  have hholds : Field.runtimeModule.Holds change.value := .text (by decide)
  refine ⟨Config.default_is_valid, hdirect.forall_holds hholds, rfl, ?_⟩
  intro hsame
  have hkept : compiled ⟨current, "ts-interface-checker"⟩ reader source "a.ts" =
      compiled ⟨current, "checks"⟩ reader source "a.ts" :=
    Option.some.inj (Option.some.inj hsame)
  have htext : compiled ⟨current, "checks"⟩ reader source "a.ts" =
      .ok (current.output.header ++ boundModule "checks" ["A"] [emptyValue]) := by
    decide +kernel
  rcases compiled_eq_iff.mp hkept with hmodule | ⟨failure, hfailure⟩
  · exact absurd hmodule (by decide)
  · rw [htext] at hfailure
    cases hfailure

end Builder

end TypeSuite
