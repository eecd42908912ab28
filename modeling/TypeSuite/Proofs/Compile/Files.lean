import Mathlib.Data.List.Induction
import TypeSuite.Proofs.Compile.Statements

/-!
# Files compiled statement by statement

With the resolver of declared names, the statements of a file have no influence on each other but
for names that are exported twice. `file_statementwise` says what a file compiles to in terms of
what its statements compile to alone, for files without declarations and source files below their
statements.
-/

namespace TypeSuite.Compile

open Step (run_bind_of_error run_bind_of_ok)

variable {settings : CompileSettings Resolver.Cache} {n : Node} {p : Progress Resolver.Cache}

/-- The names under which declarations are exported. -/
def exportNames (settings : CompileSettings Resolver.Cache) (ns : List Node) : List String :=
  ns.filterMap (exportName? settings)

/-- The declarations that statements compile to on their own, in order. -/
def declarationsAlone (settings : CompileSettings Resolver.Cache) (ns : List Node) :
    List Declaration :=
  ns.filterMap fun n => (alone settings n).toOption.join

/-- Each statement with a rule compiles alone, and no two of them export the same name. -/
structure Compatible (settings : CompileSettings Resolver.Cache) (ns : List Node) : Prop where
  alone : ∀ n ∈ ns, n.kind.isHandled = true → ∃ d, alone settings n = .ok d
  distinct : (exportNames settings ns).Nodup

/-- Why a statement is refused behind statements that export certain names: it fails alone, or it
exports one of these names once more. -/
def offence? (settings : CompileSettings Resolver.Cache) (taken : List String) (n : Node) :
    Option CompileError :=
  if n.kind.isHandled then
    match alone settings n with
    | .error e => some e
    | .ok _ => (exportName? settings n).bind fun name =>
      if name ∈ taken then some (.duplicateExport name) else none
  else none

/-- A statement without a rule has no fields. -/
theorem children_of_unhandled (h : n.kind.isHandled = false) : n.children = [] := by
  cases n <;> first | rfl | cases h

/-- A statement without a rule exports nothing. -/
theorem export_name_of_unhandled (h : n.kind.isHandled = false) :
    exportName? settings n = none := by
  cases n <;> first | rfl | cases h

/-- A statement without a rule does not compile alone. -/
theorem alone_of_unhandled (settings : CompileSettings Resolver.Cache)
    (h : n.kind.isHandled = false) :
    ∃ e, alone settings n = .error e := by
  cases n <;> first | exact ⟨_, rfl⟩ | cases h

/-- A first statement puts the name that it exports in front of the others. -/
theorem export_names_cons (n : Node) (rest : List Node) :
    exportNames settings (n :: rest) =
      (exportName? settings n).toList ++ exportNames settings rest := by
  cases h : exportName? settings n <;> simp [exportNames, h]

/-- A first statement that gives a declaration, or none, alone. -/
theorem declarations_alone_cons {d : Option Declaration} (h : alone settings n = .ok d)
    (rest : List Node) :
    declarationsAlone settings (n :: rest) = d.toList ++ declarationsAlone settings rest := by
  cases d <;> simp [declarationsAlone, h, Except.toOption]

/-- A first statement without a rule gives no declaration alone. -/
theorem declarations_alone_cons_unhandled (h : n.kind.isHandled = false) (rest : List Node) :
    declarationsAlone settings (n :: rest) = declarationsAlone settings rest := by
  obtain ⟨e, halone⟩ := alone_of_unhandled settings h
  simp [declarationsAlone, halone, Except.toOption]

/-- Statements whose fields hold no declarations and source files. -/
def AreFlat (ns : List Node) : Prop :=
  ∀ n ∈ ns, ∀ m, Node.OccursBelow m n → Node.isTopLevel m.kind = false

/-- The declarations of statements that compile alone have the names that the statements export. -/
theorem names_declarations_alone (hresolver : settings.resolver = Resolver.declared)
    {ns : List Node} (hflat : AreFlat ns)
    (halone : ∀ n ∈ ns, n.kind.isHandled = true → ∃ d, alone settings n = .ok d) :
    (declarationsAlone settings ns).map (·.name) = exportNames settings ns := by
  induction ns with
  | nil => rfl
  | cons n rest ih =>
      have hrest := ih (fun m hm => hflat m (List.mem_cons_of_mem _ hm))
        fun m hm => halone m (List.mem_cons_of_mem _ hm)
      cases hhandled : n.kind.isHandled with
      | false =>
          rw [declarations_alone_cons_unhandled hhandled, hrest, export_names_cons,
            export_name_of_unhandled hhandled, Option.toList_none, List.nil_append]
      | true =>
          obtain ⟨d, hd⟩ := halone n List.mem_cons_self hhandled
          have hname := name_alone hresolver (hflat n List.mem_cons_self) hd
          rw [declarations_alone_cons hd, List.map_append, hrest, export_names_cons, ← hname]
          cases d <;> rfl

/-- Statements that compile alone and export new and distinct names are compiled to what they
compile to alone, and export exactly that. -/
theorem statement_list_run (hresolver : settings.resolver = Resolver.declared) (fileName : String)
    {ns : List Node} (hflat : AreFlat ns)
    (halone : ∀ n ∈ ns, n.kind.isHandled = true → ∃ d, alone settings n = .ok d)
    (hdistinct : (p.exports.names ++ exportNames settings ns).Nodup) (hp : p.session.IsFaithful) :
    ∃ q, (statementList settings fileName ns).run p = (.ok (declarationsAlone settings ns), q) ∧
      q.exports.entries = p.exports.entries ++ declarationsAlone settings ns ∧
      q.session.IsFaithful := by
  -- The names exported so far and those still to come stay distinct from step to step.
  induction ns generalizing p with
  | nil => exact ⟨p, rfl, (List.append_nil _).symm, hp⟩
  | cons n rest ih =>
      have hrest := fun q => ih (p := q) (fun m hm => hflat m (List.mem_cons_of_mem _ hm))
        fun m hm => halone m (List.mem_cons_of_mem _ hm)
      rw [export_names_cons, ← List.append_assoc] at hdistinct
      cases hhandled : n.kind.isHandled with
      | false =>
          rw [export_name_of_unhandled hhandled, Option.toList_none, List.append_nil] at hdistinct
          rw [statementList, hhandled, if_neg Bool.false_ne_true,
            declarations_alone_cons_unhandled hhandled]
          exact hrest { p with events := p.events ++ [.skipped n.kindName fileName] } hdistinct hp
      | true =>
          obtain ⟨d, hd⟩ := halone n List.mem_cons_self hhandled
          have hbelow := hflat n List.mem_cons_self
          have hfresh : ∀ name ∈ exportName? settings n, name ∉ p.exports.names := by
            intro name hname htaken
            have hprefix := (List.nodup_append.mp hdistinct).1
            exact (List.nodup_append.mp hprefix).2.2 _ htaken _ (Option.mem_toList.mpr hname) rfl
          obtain ⟨v, q, hnode, hv, hentries, hq⟩ :=
            statement_run_of_alone hresolver hbelow hp hd hfresh
          have hnames : q.exports.names = p.exports.names ++ (exportName? settings n).toList := by
            rw [Exports.names, hentries, List.map_append, ← name_alone hresolver hbelow hd]
            cases d <;> rfl
          rw [← hnames] at hdistinct
          obtain ⟨r, hothers, hlater, hr⟩ := hrest q hdistinct hq
          refine ⟨r, ?_, ?_, hr⟩
          · rw [statementList, if_pos hhandled, run_bind_of_ok hnode, run_bind_of_ok hothers, hv,
              declarations_alone_cons hd]
            rfl
          · rw [hlater, hentries, declarations_alone_cons hd, List.append_assoc]

/-- Statements are compiled one list after the other. -/
theorem statement_list_append (fileName : String) (before after : List Node) :
    statementList settings fileName (before ++ after) =
      statementList settings fileName before >>= fun ds =>
        statementList settings fileName after >>= fun others => pure (ds ++ others) := by
  induction before with
  | nil => simp [statementList]
  | cons n rest ih =>
      rw [List.cons_append, statementList, statementList, ih]
      split <;> simp only [bind_assoc, pure_bind, List.append_assoc]

/-- A statement that is refused behind the names that are exported fails for that reason. -/
theorem offence_run (hresolver : settings.resolver = Resolver.declared)
    (hbelow : ∀ m, Node.OccursBelow m n → Node.isTopLevel m.kind = false)
    (hp : p.session.IsFaithful) {e : CompileError}
    (he : offence? settings p.exports.names n = some e) :
    n.kind.isHandled = true ∧ ∃ q, (node settings n).run p = (.error e, q) := by
  have hrun := statement_run hresolver hbelow hp
  unfold offence? at he
  split at he
  case isFalse => cases he
  case isTrue hhandled =>
    refine ⟨hhandled, ?_⟩
    cases hresult : (node settings n).run p with
    | mk result q =>
        rw [hresult] at hrun
        cases hrun with
        | fails e' q hfails =>
            rw [hfails] at he
            exact ⟨q, by rw [Option.some.inj he]⟩
        | silent v q hsilent hname =>
            rw [hsilent, hname] at he
            cases he
        | taken d q hgiven hname htaken =>
            rw [hgiven, hname] at he
            simp only [Option.bind_some, if_pos htaken, Option.some.injEq] at he
            exact ⟨q, by rw [he]⟩
        | exported d q hgiven hname hfresh =>
            rw [hgiven, hname] at he
            simp only [Option.bind_some, if_neg hfresh, reduceCtorEq] at he

/-- A statement that is refused behind statements that compile alone and export new and distinct
names makes the whole list fail. -/
theorem statement_list_offence (hresolver : settings.resolver = Resolver.declared)
    (fileName : String) {before after : List Node} (hflat : AreFlat (before ++ n :: after))
    (halone : ∀ m ∈ before, m.kind.isHandled = true → ∃ d, alone settings m = .ok d)
    (hdistinct : (p.exports.names ++ exportNames settings before).Nodup)
    (hp : p.session.IsFaithful) {e : CompileError}
    (he : offence? settings (p.exports.names ++ exportNames settings before) n = some e) :
    ((statementList settings fileName (before ++ n :: after)).run p).1 = .error e := by
  have hbefore : AreFlat before := fun m hm => hflat m (List.mem_append_left _ hm)
  obtain ⟨q, hrun, hentries, hq⟩ :=
    statement_list_run hresolver fileName hbefore halone hdistinct hp
  have hnames : q.exports.names = p.exports.names ++ exportNames settings before := by
    rw [Exports.names, hentries, List.map_append, names_declarations_alone hresolver hbefore halone]
    rfl
  have hn := hflat n (List.mem_append_right _ List.mem_cons_self)
  rw [← hnames] at he
  obtain ⟨hhandled, r, hresult⟩ := offence_run hresolver hn hq he
  have hrest : (statementList settings fileName (n :: after)).run q = (.error e, r) := by
    rw [statementList, if_pos hhandled, run_bind_of_error hresult]
  rw [statement_list_append, run_bind_of_ok hrun, run_bind_of_error hrest]

/-! ## Whole files -/

/-- A last statement adds the name that it exports. -/
theorem export_names_concat (before : List Node) (n : Node) :
    exportNames settings (before ++ [n]) =
      exportNames settings before ++ (exportName? settings n).toList := by
  cases h : exportName? settings n <;> simp [exportNames, h]

/-- A statement that is not refused behind compatible statements is compatible with them. -/
theorem Compatible.concat {before : List Node} (h : Compatible settings before)
    (hn : offence? settings (exportNames settings before) n = none) :
    Compatible settings (before ++ [n]) := by
  have hlast : n.kind.isHandled = true → (∃ d, Compile.alone settings n = .ok d) ∧
      ∀ name, exportName? settings n = some name → name ∉ exportNames settings before := by
    intro hhandled
    rw [offence?, if_pos hhandled] at hn
    split at hn
    case h_1 => cases hn
    case h_2 d halone =>
      refine ⟨⟨d, halone⟩, fun name hname htaken => ?_⟩
      rw [hname, Option.bind_some, if_pos htaken] at hn
      cases hn
  constructor
  · intro m hm hhandled
    obtain hm | hm := List.mem_append.mp hm
    · exact h.alone m hm hhandled
    · obtain rfl := List.mem_singleton.mp hm
      exact (hlast hhandled).1
  · rw [export_names_concat]
    cases hname : exportName? settings n with
    | none => simpa using h.distinct
    | some name =>
        have hhandled : n.kind.isHandled = true := by
          by_contra hnot
          rw [export_name_of_unhandled (Bool.eq_false_iff.mpr hnot)] at hname
          cases hname
        have hfresh := (hlast hhandled).2 name hname
        refine List.nodup_append.mpr ⟨h.distinct, by simp, ?_⟩
        intro other hother last hlast heq
        rw [heq, List.mem_singleton.mp hlast] at hother
        exact hfresh hother

/-- Statements are compatible, or one of them is the first that is refused behind the others. -/
theorem compatible_or_refused (settings : CompileSettings Resolver.Cache) (ns : List Node) :
    Compatible settings ns ∨ ∃ before n after e, ns = before ++ n :: after ∧
      Compatible settings before ∧
      offence? settings (exportNames settings before) n = some e := by
  -- From the front, what is refused first stays so with any statement behind it.
  induction ns using List.reverseRec with
  | nil => exact .inl ⟨fun m hm => absurd hm List.not_mem_nil, List.nodup_nil⟩
  | append_singleton rest n ih =>
      obtain hrest | ⟨before, m, after, e, rfl, hbefore, he⟩ := ih
      · cases hn : offence? settings (exportNames settings rest) n with
        | none => exact .inl (hrest.concat hn)
        | some e => exact .inr ⟨rest, n, [], e, rfl, hrest, hn⟩
      · exact .inr ⟨before, m, after ++ [n], e, by simp, hbefore, he⟩

/-- A file with compatible statements compiles to what its statements compile to alone. -/
theorem file_of_compatible (hresolver : settings.resolver = Resolver.declared)
    {session : Resolver.Cache} (hsession : session.IsFaithful) {f : SourceFile}
    (hflat : AreFlat f.statements) (h : Compatible settings f.statements) :
    ((file settings f).run (.start session)).1 =
      .ok ⟨f.fileName, declarationsAlone settings f.statements,
        declarationsAlone settings f.statements⟩ := by
  obtain ⟨q, hrun, hentries, -⟩ := statement_list_run (p := .start session) hresolver f.fileName
    hflat h.alone h.distinct hsession
  have hall : q.exports.entries = declarationsAlone settings f.statements := hentries
  rw [file, run_bind_of_ok hrun, ← hall]
  rfl

/-- A file compiles to the reason for which the first refused statement is refused. -/
theorem file_of_refused (hresolver : settings.resolver = Resolver.declared)
    {session : Resolver.Cache} (hsession : session.IsFaithful) {f : SourceFile}
    (hflat : AreFlat f.statements) {before after : List Node}
    (hsplit : f.statements = before ++ n :: after) (h : Compatible settings before)
    {e : CompileError} (he : offence? settings (exportNames settings before) n = some e) :
    ((file settings f).run (.start session)).1 = .error e := by
  have hfails := statement_list_offence (p := .start session) hresolver f.fileName
    (hsplit ▸ hflat) h.alone h.distinct hsession he
  rw [← hsplit] at hfails
  have hrun : (statementList settings f.fileName f.statements).run (.start session) =
      (.error e, ((statementList settings f.fileName f.statements).run (.start session)).2) :=
    Prod.ext hfails rfl
  rw [file, run_bind_of_error hrun]

/-- A file compiles or one of its statements is the first that is refused. -/
theorem file_cases (hresolver : settings.resolver = Resolver.declared)
    {session : Resolver.Cache} (hsession : session.IsFaithful) {f : SourceFile}
    (hflat : AreFlat f.statements) :
    (Compatible settings f.statements ∧ ((file settings f).run (.start session)).1 =
      .ok ⟨f.fileName, declarationsAlone settings f.statements,
        declarationsAlone settings f.statements⟩) ∨
    ∃ before n after e, f.statements = before ++ n :: after ∧ Compatible settings before ∧
      offence? settings (exportNames settings before) n = some e ∧
      ((file settings f).run (.start session)).1 = .error e := by
  obtain h | ⟨before, n, after, e, hsplit, h, he⟩ := compatible_or_refused settings f.statements
  · exact .inl ⟨h, file_of_compatible hresolver hsession hflat h⟩
  · exact .inr ⟨before, n, after, e, hsplit, h, he,
      file_of_refused hresolver hsession hflat hsplit h he⟩

/-- Exactly the files with compatible statements compile. -/
theorem compiles_iff (hresolver : settings.resolver = Resolver.declared)
    {session : Resolver.Cache} (hsession : session.IsFaithful) {f : SourceFile}
    (hflat : AreFlat f.statements) {m : CheckerModule} :
    ((file settings f).run (.start session)).1 = .ok m ↔ Compatible settings f.statements ∧
      m = ⟨f.fileName, declarationsAlone settings f.statements,
        declarationsAlone settings f.statements⟩ := by
  constructor
  · intro hm
    obtain ⟨h, hok⟩ | ⟨before, n, after, e, -, -, -, herror⟩ := file_cases hresolver hsession hflat
    · rw [hok] at hm
      exact ⟨h, (Except.ok.inj hm).symm⟩
    · rw [herror] at hm
      cases hm
  · rintro ⟨h, rfl⟩
    exact file_of_compatible hresolver hsession hflat h

/-- Exactly the files with a first refused statement fail, for the reason of that statement. -/
theorem fails_iff (hresolver : settings.resolver = Resolver.declared)
    {session : Resolver.Cache} (hsession : session.IsFaithful) {f : SourceFile}
    (hflat : AreFlat f.statements) {e : CompileError} :
    ((file settings f).run (.start session)).1 = .error e ↔
      ∃ before n after, f.statements = before ++ n :: after ∧ Compatible settings before ∧
        offence? settings (exportNames settings before) n = some e := by
  constructor
  · intro hm
    obtain ⟨-, hok⟩ | ⟨before, n, after, e', hsplit, h, he, herror⟩ :=
      file_cases hresolver hsession hflat
    · rw [hok] at hm
      cases hm
    · rw [herror] at hm
      exact ⟨before, n, after, hsplit, h, Except.error.inj hm ▸ he⟩
  · rintro ⟨before, n, after, hsplit, h, he⟩
    exact file_of_refused hresolver hsession hflat hsplit h he

/-! ## Other statements -/

/-- What statements without a rule lack is found among those with a rule. -/
theorem filter_map_handled {β : Type} {found : Node → Option β}
    (h : ∀ n, n.kind.isHandled = false → found n = none) (ns : List Node) :
    (ns.filter (·.kind.isHandled)).filterMap found = ns.filterMap found := by
  induction ns with
  | nil => rfl
  | cons n rest ih =>
      cases hhandled : n.kind.isHandled with
      | false => rw [List.filter_cons_of_neg (by simp [hhandled]), ih,
          List.filterMap_cons_none (h n hhandled)]
      | true => rw [List.filter_cons, hhandled, if_pos rfl, List.filterMap_cons,
          List.filterMap_cons, ih]

/-- Statements without a rule export nothing. -/
theorem export_names_handled (ns : List Node) :
    exportNames settings (ns.filter (·.kind.isHandled)) = exportNames settings ns :=
  filter_map_handled (fun _ => export_name_of_unhandled) ns

/-- Statements without a rule compile to nothing alone. -/
theorem declarations_alone_handled (ns : List Node) :
    declarationsAlone settings (ns.filter (·.kind.isHandled)) = declarationsAlone settings ns := by
  refine filter_map_handled (fun n hhandled => ?_) ns
  obtain ⟨e, he⟩ := alone_of_unhandled settings hhandled
  rw [he]
  rfl

/-- Compatible statements are those of which the ones with a rule are compatible. -/
theorem compatible_handled_iff {ns : List Node} :
    Compatible settings (ns.filter (·.kind.isHandled)) ↔ Compatible settings ns := by
  constructor
  · intro h
    refine ⟨fun n hn hhandled => ?_, export_names_handled ns ▸ h.distinct⟩
    exact h.alone n (List.mem_filter.mpr ⟨hn, hhandled⟩) hhandled
  · intro h
    refine ⟨fun n hn => h.alone n (List.mem_filter.mp hn).1, ?_⟩
    rw [export_names_handled]
    exact h.distinct

/-- Compatible statements stay so in every order. -/
theorem Compatible.perm {ns ms : List Node} (h : Compatible settings ns) (hperm : ms.Perm ns) :
    Compatible settings ms :=
  ⟨fun n hn => h.alone n (hperm.mem_iff.mp hn),
    (hperm.filterMap (exportName? settings)).nodup_iff.mpr h.distinct⟩

/-- Only the statements with a rule decide which one is the first that is refused. -/
theorem refused_of_handled {ns ms : List Node}
    (hsame : ms.filter (·.kind.isHandled) = ns.filter (·.kind.isHandled)) {before after : List Node}
    (hsplit : ns = before ++ n :: after) (h : Compatible settings before) {e : CompileError}
    (he : offence? settings (exportNames settings before) n = some e) :
    ∃ before' after', ms = before' ++ n :: after' ∧ Compatible settings before' ∧
      offence? settings (exportNames settings before') n = some e := by
  have hhandled : n.kind.isHandled = true := by
    by_contra hnot
    rw [offence?, if_neg hnot] at he
    cases he
  rw [hsplit, List.filter_append, List.filter_cons, hhandled, if_pos rfl] at hsame
  -- Statements without a rule may stand on both sides of the split; those at it go to the front.
  obtain ⟨before', others, rfl, hbefore, hothers⟩ := List.filter_eq_append_iff.mp hsame
  obtain ⟨skipped, after', rfl, hskipped, -, -⟩ := List.filter_eq_cons_iff.mp hothers
  have hfilter : (before' ++ skipped).filter (·.kind.isHandled) =
      before.filter (·.kind.isHandled) := by
    rw [List.filter_append, hbefore, List.filter_eq_nil_iff.mpr hskipped, List.append_nil]
  refine ⟨before' ++ skipped, after', by simp, ?_, ?_⟩
  · rw [← compatible_handled_iff, hfilter, compatible_handled_iff]
    exact h
  · rw [← export_names_handled, hfilter, export_names_handled]
    exact he

/-- Statements with the same ones with a rule are flat together. -/
theorem AreFlat.of_handled {ns ms : List Node} (h : AreFlat ns)
    (hsame : ms.filter (·.kind.isHandled) = ns.filter (·.kind.isHandled)) : AreFlat ms := by
  intro n hn m hm
  cases hhandled : n.kind.isHandled with
  | false =>
      obtain ⟨c, hc, -⟩ := hm
      rw [children_of_unhandled hhandled] at hc
      cases hc
  | true =>
      have hmem : n ∈ ns.filter (·.kind.isHandled) := hsame ▸ List.mem_filter.mpr ⟨hn, hhandled⟩
      exact h n (List.mem_filter.mp hmem).1 m hm

/-- A file with the same statements with a rule compiles to the same. -/
theorem file_of_handled (hresolver : settings.resolver = Resolver.declared)
    {session : Resolver.Cache} (hsession : session.IsFaithful) {f : SourceFile}
    (hflat : AreFlat f.statements) {ns : List Node}
    (hsame : ns.filter (·.kind.isHandled) = f.statements.filter (·.kind.isHandled)) :
    ((file settings { f with statements := ns }).run (.start session)).1 =
      ((file settings f).run (.start session)).1 := by
  -- What makes one of the two files compile or fail makes the other one do so as well.
  have hother : AreFlat ns := hflat.of_handled hsame
  obtain ⟨h, hok⟩ | ⟨before, n, after, e, hsplit, h, he, herror⟩ :=
    file_cases hresolver hsession hflat
  · have hns : Compatible settings ns := by
      rw [← compatible_handled_iff, hsame, compatible_handled_iff]
      exact h
    have hdeclarations :
        declarationsAlone settings ns = declarationsAlone settings f.statements := by
      rw [← declarations_alone_handled, hsame, declarations_alone_handled]
    rw [hok, file_of_compatible (f := { f with statements := ns }) hresolver hsession hother hns,
      hdeclarations]
  · obtain ⟨before', after', hsplit', h', he'⟩ := refused_of_handled hsame hsplit h he
    rw [herror]
    exact file_of_refused (f := { f with statements := ns }) hresolver hsession hother hsplit' h'
      he'

/-- Without declarations and source files below its statements, a file is compiled statement by
statement. It compiles if and only if each statement with a rule compiles alone and no name is
exported twice, and its declarations and exports are then those of its statements alone, in order.
Else the first refused statement decides the error: its own when it fails alone, or that its name
is exported twice. Statements without a rule change nothing, and in another order the same
statements compile together, to their declarations in that order. -/
theorem file_statementwise (settings : CompileSettings Resolver.Cache)
    (hresolver : settings.resolver = Resolver.declared) (session : Resolver.Cache)
    (hsession : session.IsFaithful) (f : SourceFile) (hflat : AreFlat f.statements) :
    (∀ m, ((file settings f).run (.start session)).1 = .ok m ↔
      Compatible settings f.statements ∧ m = ⟨f.fileName, declarationsAlone settings f.statements,
        declarationsAlone settings f.statements⟩) ∧
    (∀ e, ((file settings f).run (.start session)).1 = .error e ↔
      ∃ before n after, f.statements = before ++ n :: after ∧ Compatible settings before ∧
        offence? settings (exportNames settings before) n = some e) ∧
    (∀ ns, ns.filter (·.kind.isHandled) = f.statements.filter (·.kind.isHandled) →
      ((file settings { f with statements := ns }).run (.start session)).1 =
        ((file settings f).run (.start session)).1) ∧
    ∀ ns, ns.Perm f.statements →
      ((∃ m, ((file settings { f with statements := ns }).run (.start session)).1 = .ok m) ↔
        ∃ m, ((file settings f).run (.start session)).1 = .ok m) ∧
      ∀ m, ((file settings { f with statements := ns }).run (.start session)).1 = .ok m →
        m.declarations = declarationsAlone settings ns ∧
        m.declarations.Perm (declarationsAlone settings f.statements) := by
  refine ⟨fun m => compiles_iff hresolver hsession hflat,
    fun e => fails_iff hresolver hsession hflat,
    fun ns => file_of_handled hresolver hsession hflat, fun ns hperm => ?_⟩
  have hother : AreFlat ns := fun n hn => hflat n (hperm.mem_iff.mp hn)
  have hcompiles : ∀ m, ((file settings { f with statements := ns }).run (.start session)).1 =
      .ok m ↔ Compatible settings ns ∧
        m = ⟨f.fileName, declarationsAlone settings ns, declarationsAlone settings ns⟩ :=
    fun m => compiles_iff hresolver hsession hother
  refine ⟨?_, fun m hm => ?_⟩
  · constructor
    · rintro ⟨m, hm⟩
      exact ⟨_, file_of_compatible hresolver hsession hflat
        (((hcompiles m).mp hm).1.perm hperm.symm)⟩
    · rintro ⟨m, hm⟩
      exact ⟨_, (hcompiles _).mpr
        ⟨((compiles_iff hresolver hsession hflat).mp hm).1.perm hperm, rfl⟩⟩
  · obtain ⟨-, rfl⟩ := (hcompiles m).mp hm
    exact ⟨rfl, hperm.filterMap _⟩

/-- A file of an interface, a statement without a rule, a keyword and an alias. -/
def mixedFile : SourceFile :=
  ⟨"mixed.ts",
    [.interface (.identifier "A") [] [.property (.identifier "x") none true "x?"] "interface A",
     .unknown "expression_statement" "f()", .keyword .number "number",
     .alias (.identifier "B") (.reference (.identifier "A") [] "A") "type B = A"], ""⟩

/-- A file of an interface and an alias is compiled statement by statement. -/
theorem file_statementwise_mixed :
    AreFlat mixedFile.statements ∧ Resolver.Cache.IsFaithful [] ∧
      Compatible ⟨Resolver.declared, "unknown", "Promise"⟩ mixedFile.statements ∧
      declarationsAlone ⟨Resolver.declared, "unknown", "Promise"⟩ mixedFile.statements =
        [⟨"A", .iface [] [.member "x" (.opt .any)]⟩, ⟨"B", .ref "A"⟩] := by
  have hflat : AreFlat mixedFile.statements := by
    intro n hn m hm
    simp only [mixedFile, List.mem_cons, List.not_mem_nil, or_false] at hn
    obtain rfl | rfl | rfl | rfl := hn
    · refine Node.Fits.lacks_below (.interface _ (.identifier _) (by simp) ?_) hm
      simpa using Node.Fits.property true "x?" (.identifier "x") (by simp)
    · exact Node.Fits.lacks_below (.unknown .statement _ _) hm
    · exact Node.Fits.lacks_below (.keyword _ _) hm
    · exact Node.Fits.lacks_below
        (.typeAlias _ (.identifier _) (.reference _ _ (by simp))) hm
  have hall := file_statementwise ⟨Resolver.declared, "unknown", "Promise"⟩ rfl []
    Resolver.faithful_nil mixedFile hflat
  have hrun : ((file ⟨Resolver.declared, "unknown", "Promise"⟩ mixedFile).run (.start [])).1 =
      .ok ⟨"mixed.ts", [⟨"A", .iface [] [.member "x" (.opt .any)]⟩, ⟨"B", .ref "A"⟩],
        [⟨"A", .iface [] [.member "x" (.opt .any)]⟩, ⟨"B", .ref "A"⟩]⟩ := rfl
  obtain ⟨hcompatible, hmodule⟩ := (hall.1 _).mp hrun
  exact ⟨hflat, Resolver.faithful_nil, hcompatible,
    (congrArg CheckerModule.declarations hmodule).symm⟩

end TypeSuite.Compile
