import TypeSuite.Proofs.Compile.Parallel

/-!
# Resolvers influence names only

Whatever two resolvers answer, a file is compiled to the same module but for the names of
parameters, members and declarations, or it is refused with the same error. The answers decide only
whether a name is exported twice, so `file_noninterference` speaks of runs that are not refused for
that.
-/

namespace TypeSuite

/-- A module without the names of its parameters, members and declarations. -/
def CheckerModule.unnamed (m : CheckerModule) : CheckerModule :=
  m.rename fun _ => ""

namespace Compile

variable {σ τ : Type} {first : CompileSettings σ} {second : CompileSettings τ}
  {f : String → String}

/-- Declarations that are the same when they are renamed keep the exports the same, unless one of
them is refused. -/
theorem add_export_agree {d e : Declaration} {p : Progress σ} {q : Progress τ}
    (hsame : d.rename f = e.rename f) (hexports : SameExports f p q) :
    Agree (SameExports f) True (Alike f) ((addExport d).run p) ((addExport e).run q) := by
  by_cases hd : d.name ∈ p.exports.names
  · rw [run_add_export_taken hd]
    exact .takenFirst _ _ _ trivial
  · by_cases he : e.name ∈ q.exports.names
    · rw [run_add_export_taken he]
      exact .takenSecond _ _ _ trivial
    · obtain ⟨left, hleft, hrunLeft⟩ := run_add_export_fresh hd
      obtain ⟨right, hright, hrunRight⟩ := run_add_export_fresh he
      rw [hrunLeft, hrunRight]
      refine .values (congrArg Declaration.toValidator hsame) ?_
      show left.entries.map (·.rename f) = right.entries.map (·.rename f)
      rw [hleft, hright, List.map_append, List.map_append, hexports, List.map_cons, hsame]
      rfl

/-- Compilations whose resolvers answer with names that are the same when they are renamed keep
their exports the same, unless one of them is refused. -/
theorem keeps_same_exports
    (hnames : ∀ n s t, f (((first.resolver n).run s).1.getD first.fallback) =
      f (((second.resolver n).run t).1.getD second.fallback)) :
    Keeps first second f (SameExports f) True where
  exports := id
  resolveName {p q} n hpq := by
    obtain ⟨events, hleft⟩ := run_resolve_name first n p
    obtain ⟨events', hright⟩ := run_resolve_name second n q
    rw [hleft, hright]
    exact .values (hnames n p.session q.session) hpq
  report _ hpq := .values rfl hpq
  add := add_export_agree

/-- Two compilations of a file with any resolvers and any fallback names, neither of which is
refused for a name that is exported twice, fail with the same error, or they give modules that are
the same without the names of their parameters, members and declarations. -/
theorem file_noninterference (resolver : Resolver σ) (resolver' : Resolver τ)
    (fallback fallback' wrapper : String) (session : σ) (session' : τ) (file : SourceFile)
    (h : ∀ name, ((Compile.file ⟨resolver, fallback, wrapper⟩ file).run (.start session)).1 ≠
      .error (.duplicateExport name))
    (h' : ∀ name, ((Compile.file ⟨resolver', fallback', wrapper⟩ file).run (.start session')).1 ≠
      .error (.duplicateExport name)) :
    (∃ e, ((Compile.file ⟨resolver, fallback, wrapper⟩ file).run (.start session)).1 = .error e ∧
      ((Compile.file ⟨resolver', fallback', wrapper⟩ file).run (.start session')).1 = .error e) ∨
    ∃ m m', ((Compile.file ⟨resolver, fallback, wrapper⟩ file).run (.start session)).1 = .ok m ∧
      ((Compile.file ⟨resolver', fallback', wrapper⟩ file).run (.start session')).1 = .ok m' ∧
      m.unnamed = m'.unnamed := by
  have hparallel := file_parallel ⟨resolver, fallback, wrapper⟩ ⟨resolver', fallback', wrapper⟩
    (fun _ => "") rfl file
  have hagree := hparallel.agree (keeps_same_exports fun _ _ _ => rfl) (p := .start session)
    (q := .start session') rfl
  cases hrun : (Compile.file ⟨resolver, fallback, wrapper⟩ file).run (.start session) with
  | mk o p =>
      cases hrun' : (Compile.file ⟨resolver', fallback', wrapper⟩ file).run (.start session') with
      | mk o' q =>
          rw [hrun] at h hagree
          rw [hrun'] at h' hagree
          cases hagree with
          | values hsame _ => exact .inr ⟨_, _, rfl, rfl, hsame⟩
          | errors e => exact .inl ⟨e, rfl, rfl⟩
          | takenFirst name => exact absurd rfl (h name)
          | takenSecond name => exact absurd rfl (h' name)

/-- A file with an interface whose names are a computed one, a quoted one and that of a parameter,
and an alias without a static name. -/
def namesFile : SourceFile :=
  ⟨"names.ts", [
    .interface (.identifier "A") []
      [.property (.stringLiteral "'p q'") (some (.keyword .number "number")) true "'p q'?: number",
       .method (.computedName "[k]") [.parameter (.identifier "a") none true "a?"]
         (some (.reference (.identifier "B") [] "B")) "[k](a?): B"] "",
    .alias (.computedName "[x]") (.typeLiteral [] "{}") "type [x] = {}"], ""⟩

/-- A resolver that counts its questions and answers the first one only. -/
def firstResolver : Resolver Nat :=
  fun _ => modifyGet fun count => (if count = 0 then some "first" else none, count + 1)

/-- The module of the file with names for its declarations, the members and the parameter. -/
def namesModule (outer quoted computed parameter last : String) : CheckerModule :=
  let declarations : List Declaration := [
    ⟨outer, .iface [] [.member quoted (.opt (.ref "number")),
      .member computed (.func (.ref "B") [.param parameter .any true])]⟩,
    ⟨last, .iface [] []⟩]
  ⟨"names.ts", declarations, declarations⟩

/-- The modules of the file under two resolvers differ, but not without their names. -/
theorem file_noninterference_names :
    (∀ name, ((file ⟨Resolver.declared, "unknown", "Promise"⟩ namesFile).run
        (.start [])).1 ≠ .error (.duplicateExport name)) ∧
      (∀ name, ((file ⟨firstResolver, "other", "Promise"⟩ namesFile).run
        (.start 0)).1 ≠ .error (.duplicateExport name)) ∧
      ((file ⟨Resolver.declared, "unknown", "Promise"⟩ namesFile).run (.start [])).1 =
        .ok (namesModule "A" "p q" "unknown" "a" "unknown") ∧
      ((file ⟨firstResolver, "other", "Promise"⟩ namesFile).run (.start 0)).1 =
        .ok (namesModule "first" "other" "other" "other" "other") ∧
      (namesModule "A" "p q" "unknown" "a" "unknown").unnamed =
        (namesModule "first" "other" "other" "other" "other").unnamed := by
  have hrun : ((file ⟨Resolver.declared, "unknown", "Promise"⟩ namesFile).run (.start [])).1 =
      .ok (namesModule "A" "p q" "unknown" "a" "unknown") := rfl
  have hrun' : ((file ⟨firstResolver, "other", "Promise"⟩ namesFile).run (.start 0)).1 =
      .ok (namesModule "first" "other" "other" "other" "other") := rfl
  have hfresh : ∀ name, ((file ⟨Resolver.declared, "unknown", "Promise"⟩ namesFile).run
      (.start [])).1 ≠ .error (.duplicateExport name) := by
    rw [hrun]
    nofun
  have hfresh' : ∀ name, ((file ⟨firstResolver, "other", "Promise"⟩ namesFile).run
      (.start 0)).1 ≠ .error (.duplicateExport name) := by
    rw [hrun']
    nofun
  have hboth := file_noninterference Resolver.declared firstResolver "unknown" "other" "Promise"
    [] 0 namesFile hfresh hfresh'
  rw [hrun, hrun'] at hboth
  obtain ⟨e, he, -⟩ | ⟨m, m', hm, hm', hsame⟩ := hboth
  · cases he
  · obtain rfl := Except.ok.inj hm
    obtain rfl := Except.ok.inj hm'
    exact ⟨hfresh, hfresh', hrun, hrun', hsame⟩

end Compile

end TypeSuite
