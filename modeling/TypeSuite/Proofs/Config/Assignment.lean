import TypeSuite.Config.Assign
import TypeSuite.Proofs.Config.Sections

/-!
# Sequences of assignments

Settings are changed by one assignment after the other, each of which may be refused.
`valid_after_iff` says which sequences leave them valid: whole sections are checked, so it is only a
single setting that can come to hold what it may not, until it is assigned anew.
-/

namespace TypeSuite

/-- An assignment: the names that lead to a place, and the value that is put there. -/
structure Assignment where
  names : List String
  value : Value

namespace Assignment

/-- A single setting is assigned. -/
def IsDirect (a : Assignment) (f : Field) : Prop :=
  a.names = [f.sectionOf.name, f.name]

/-- A section is assigned as a whole, with values that its settings take. -/
def IsWhole (a : Assignment) (part : Section) : Prop :=
  a.names = [part.name] ∧ ∃ inner, a.value = .map inner ∧
    ∀ f : Field, f.sectionOf = part → f.Suits (Value.find? inner f.name)

/-- A setting is assigned, by itself or with its section. -/
def Replaces (a : Assignment) (f : Field) : Prop :=
  a.IsDirect f ∨ a.IsWhole f.sectionOf

variable {a : Assignment} {f g : Field} {part : Section}

/-- The names of a setting lead to one setting. -/
theorem IsDirect.unique (h : a.IsDirect f) (hother : a.IsDirect g) : f = g := by
  have hnames : [f.sectionOf.name, f.name] = [g.sectionOf.name, g.name] := h.symm.trans hother
  revert hnames
  cases f <;> cases g <;> decide

/-- What a setting is assigned it may hold, when the names lead to a setting that may. -/
theorem IsDirect.forall_holds (h : a.IsDirect f) (hvalue : f.Holds a.value) :
    ∀ g, a.IsDirect g → g.Holds a.value := by
  intro g hg
  obtain rfl := h.unique hg
  exact hvalue

/-- No names lead both to a section and to a setting. -/
theorem IsWhole.not_is_direct (h : a.IsWhole part) : ¬ a.IsDirect f := by
  intro hdirect
  have hnames : [part.name] = [f.sectionOf.name, f.name] := h.1.symm.trans hdirect
  have hlengths := congrArg List.length hnames
  simp at hlengths

end Assignment

/-- A setting is found under its name. -/
theorem Section.field_eq_some_iff {part : Section} {name : String} {f : Field} :
    part.field? name = some f ↔ f.sectionOf = part ∧ f.name = name := by
  constructor
  · intro h
    have hname := List.find?_some h
    exact ⟨Field.mem_fields_iff.mp (List.mem_of_find?_eq_some h), eq_of_beq hname⟩
  · rintro ⟨rfl, rfl⟩
    cases f <;> decide

/-- A configuration after an assignment, which leaves it as it is when it is refused. -/
def Config.assigned (c : Config) (a : Assignment) : Config :=
  match c.assign a.names a.value with
  | .ok d => d
  | .error _ => c

namespace Settings

variable {s : Settings} {a : Assignment} {f g : Field} {part : Section} {c : Config}

/-- Settings after an assignment, also when it is refused. -/
def after (s : Settings) (a : Assignment) : Settings :=
  ((assign a.names a.value).run s).2

/-- Settings after assignments one after the other. -/
def afterAll (s : Settings) (steps : List Assignment) : Settings :=
  steps.foldl after s

/-! ## One assignment -/

/-- An assignment to a setting is never refused. -/
theorem run_assign_direct (s : Settings) (h : a.IsDirect f) :
    (assign a.names a.value).run s = (.ok (), s.set f a.value) := by
  have hpart : Section.ofName? f.sectionOf.name = some f.sectionOf :=
    Section.of_name_eq_some_iff.mpr rfl
  have hfield : f.sectionOf.field? f.name = some f := Section.field_eq_some_iff.mpr ⟨rfl, rfl⟩
  rw [show a.names = [f.sectionOf.name, f.name] from h, assign, hpart]
  simp only [hfield]
  rfl

/-- An assignment to a section that is taken replaces it by a valid one. -/
theorem run_assign_whole (s : Settings) (h : a.IsWhole part) :
    ∃ c, (assign a.names a.value).run s = (.ok (), s.replace part c) ∧
      ∀ f : Field, f.sectionOf = part → f.Holds (Config.settingValue (c.get f)) := by
  obtain ⟨hnames, inner, hvalue, hsuits⟩ := h
  have hpart : Section.ofName? part.name = some part := Section.of_name_eq_some_iff.mpr rfl
  have hclean : (Config.readSection ⟨{}, []⟩ part a.value).mistakes = [] :=
    Config.read_section_clean_iff.mpr ⟨rfl, inner, hvalue, hsuits⟩
  refine ⟨(Config.readSection ⟨{}, []⟩ part a.value).config, ?_, ?_⟩
  · rw [hnames, assign, hpart]
    show (assignSection part a.value).run s = _
    unfold assignSection
    simp only [hclean]
    rfl
  · intro f hf
    rw [hvalue]
    exact ((Config.read_section_changes ⟨{}, []⟩ hsuits f).1 hf).holds (Config.default_is_valid f)

/-- Any other assignment is refused and changes nothing. -/
theorem run_assign_refused (s : Settings) (hdirect : ∀ f, ¬ a.IsDirect f)
    (hwhole : ∀ part, ¬ a.IsWhole part) : ∃ e, (assign a.names a.value).run s = (.error e, s) := by
  obtain ⟨names, value⟩ := a
  show ∃ e, (assign names value).run s = _
  rw [assign.eq_def]
  split
  case h_1 name =>
    cases hpart : Section.ofName? name with
    | none => exact ⟨.mistaken [⟨[name], .noAttribute name⟩], rfl⟩
    | some part =>
        obtain rfl := Section.of_name_eq_some_iff.mp hpart
        cases hmistakes : (Config.readSection ⟨{}, []⟩ part value).mistakes with
        | nil =>
            obtain ⟨-, inner, hvalue, hsuits⟩ := Config.read_section_clean_iff.mp hmistakes
            exact absurd ⟨rfl, inner, hvalue, hsuits⟩ (hwhole part)
        | cons mistake rest =>
            refine ⟨.mistaken (mistake :: rest), ?_⟩
            show (assignSection part value).run s = _
            unfold assignSection
            simp only [hmistakes]
            rfl
  case h_2 name field =>
    cases hpart : Section.ofName? name with
    | none => exact ⟨.noSection name, rfl⟩
    | some part =>
        obtain rfl := Section.of_name_eq_some_iff.mp hpart
        cases hfield : part.field? field with
        | none =>
            refine ⟨.noField part field, ?_⟩
            simp only [hfield]
            rfl
        | some f =>
            obtain ⟨rfl, rfl⟩ := Section.field_eq_some_iff.mp hfield
            exact absurd rfl (hdirect f)
  case h_3 => exact ⟨_, rfl⟩

/-- An assignment that is refused changes nothing. -/
theorem after_of_refused {e : Config.AssignError}
    (h : ((assign a.names a.value).run s).1 = .error e) : s.after a = s := by
  by_cases hdirect : ∃ f, a.IsDirect f
  · obtain ⟨f, hf⟩ := hdirect
    rw [run_assign_direct s hf] at h
    cases h
  · by_cases hwhole : ∃ part, a.IsWhole part
    · obtain ⟨part, hpart⟩ := hwhole
      obtain ⟨c, hrun, -⟩ := run_assign_whole s hpart
      rw [hrun] at h
      cases h
    · obtain ⟨other, hrun⟩ := run_assign_refused s (not_exists.mp hdirect) (not_exists.mp hwhole)
      rw [after, hrun]

/-- A setting holds what is assigned to it, whatever it is. -/
theorem value_after_direct (s : Settings) (h : a.IsDirect f) : (s.after a).value f = a.value := by
  rw [after, run_assign_direct s h]
  exact if_pos rfl

/-- After its section is assigned, a setting holds what it may hold. -/
theorem holds_after_whole (s : Settings) (h : a.IsWhole f.sectionOf) :
    f.Holds ((s.after a).value f) := by
  obtain ⟨c, hrun, hholds⟩ := run_assign_whole s h
  have hvalue : (s.after a).value f = Config.settingValue (c.get f) := by
    rw [after, hrun]
    exact if_pos rfl
  rw [hvalue]
  exact hholds f rfl

/-- A setting that is not assigned stays as it is. -/
theorem value_after_of_not_replaces (s : Settings) (h : ¬ a.Replaces f) :
    (s.after a).value f = s.value f := by
  by_cases hdirect : ∃ g, a.IsDirect g
  · obtain ⟨g, hg⟩ := hdirect
    rw [after, run_assign_direct s hg]
    refine if_neg ?_
    rintro rfl
    exact h (.inl hg)
  · by_cases hwhole : ∃ part, a.IsWhole part
    · obtain ⟨part, hpart⟩ := hwhole
      obtain ⟨c, hrun, -⟩ := run_assign_whole s hpart
      rw [after, hrun]
      refine if_neg ?_
      rintro rfl
      exact h (.inr hpart)
    · obtain ⟨e, hrun⟩ := run_assign_refused s (not_exists.mp hdirect) (not_exists.mp hwhole)
      rw [after, hrun]

/-- A setting that holds what it may hold still does so after an assignment, unless it is assigned
by itself what it may not hold. -/
theorem holds_after (hs : f.Holds (s.value f)) (ha : a.IsDirect f → f.Holds a.value) :
    f.Holds ((s.after a).value f) := by
  by_cases hreplaces : a.Replaces f
  · rcases hreplaces with hdirect | hwhole
    · rw [value_after_direct s hdirect]
      exact ha hdirect
    · exact holds_after_whole s hwhole
  · rwa [value_after_of_not_replaces s hreplaces]

/-! ## Settings that are a configuration -/

/-- The content of a configuration's settings is what they hold. -/
theorem content_of_config (c : Config) (f : Field) : (ofConfig c).content? f = some (c.get f) := by
  cases f with
  | outDir | file =>
      unfold content? ofConfig
      dsimp only
      generalize c.get _ = content
      cases content <;> rfl
  | _ => rfl

/-- The settings of a configuration are those of no other. -/
theorem config_of_config (c : Config) : (ofConfig c).config? = some c := by
  have hstep : ∀ (d : Config) (f : Field),
      ((ofConfig c).content? f).map (d.set f) = pure (d.set f (c.get f)) := by
    intro d f
    rw [content_of_config]
    rfl
  unfold config?
  simp only [hstep, List.foldlM_pure]
  refine congrArg some (Config.eq_of_get fun f => ?_)
  rw [Config.get_fold_set c.get_is_some, if_pos (Field.mem_all f)]

/-- Settings that hold what they may hold are those of a configuration. -/
theorem exists_config (h : ∀ f : Field, f.Holds (s.value f)) : ∃ c, s = ofConfig c := by
  have hcontents : ∀ f, ∃ content, s.value f = Config.settingValue content ∧
      (content.isSome = true ∨ f.isOptional = true) := by
    intro f
    have hf := h f
    generalize s.value f = v at hf
    cases hf with
    | text => exact ⟨some _, rfl, .inl rfl⟩
    | unset hoptional => exact ⟨none, rfl, .inr hoptional⟩
  obtain ⟨content, hcontent⟩ := Classical.axiomOfChoice hcontents
  refine ⟨Field.all.foldl (fun c f => c.set f (content f)) {}, ?_⟩
  obtain ⟨value⟩ := s
  refine congrArg Settings.mk (funext fun f => ?_)
  rw [Config.get_fold_set fun f => (hcontent f).2, if_pos (Field.mem_all f)]
  exact (hcontent f).1

/-- An assignment takes a valid configuration to a valid one, unless a setting is assigned by itself
what it may not hold. -/
theorem of_config_assigned (hc : c.IsValid) (ha : ∀ f, a.IsDirect f → f.Holds a.value) :
    (ofConfig c).after a = ofConfig (c.assigned a) ∧ (c.assigned a).IsValid := by
  have hholds : ∀ f : Field, f.Holds (((ofConfig c).after a).value f) :=
    fun f => holds_after (hc f) (ha f)
  obtain ⟨d, hd⟩ := exists_config hholds
  have hassigned : c.assigned a = d := by
    have hconfig : ((ofConfig c).after a).config? = some d := by rw [hd, config_of_config]
    unfold Config.assigned Config.assign
    rw [after] at hconfig
    cases hrun : (assign a.names a.value).run (ofConfig c) with
    | mk result settings =>
        rw [hrun] at hconfig
        cases result with
        | ok u =>
            show settings.config?.getD c = d
            rw [hconfig]
            rfl
        | error e =>
            -- A refusal leaves the settings, which are those of one configuration only.
            have hsame : (ofConfig c).after a = ofConfig c := after_of_refused (by rw [hrun])
            rw [hd] at hsame
            have hconfigs := congrArg config? hsame
            rw [config_of_config, config_of_config] at hconfigs
            exact (Option.some.inj hconfigs).symm
  rw [hassigned]
  rw [hd] at hholds
  exact ⟨hd, hholds⟩

/-! ## Sequences -/

/-- A setting is assigned a value that it may not hold, and not assigned again behind that. -/
inductive Spoils (f : Field) : List Assignment → Prop where
  | here {a : Assignment} {rest : List Assignment} :
      a.IsDirect f → ¬ f.Holds a.value → (∀ b ∈ rest, ¬ b.Replaces f) → Spoils f (a :: rest)
  | later {a : Assignment} {rest : List Assignment} : Spoils f rest → Spoils f (a :: rest)

/-- A setting holds after assignments what it may not hold exactly if they spoil it, or if it did so
before and is not assigned. -/
theorem not_holds_after_all_iff (s : Settings) (steps : List Assignment) (f : Field) :
    ¬ f.Holds ((s.afterAll steps).value f) ↔
      Spoils f steps ∨ ¬ f.Holds (s.value f) ∧ ∀ a ∈ steps, ¬ a.Replaces f := by
  induction steps generalizing s with
  | nil =>
      constructor
      · intro h
        exact .inr ⟨h, nofun⟩
      · rintro (hspoils | ⟨h, -⟩)
        · cases hspoils
        · exact h
  | cons a rest ih =>
      -- The rest starts from what the first assignment leaves, which tells the cases apart.
      show ¬ f.Holds (((s.after a).afterAll rest).value f) ↔ _
      rw [ih]
      constructor
      · rintro (hspoils | ⟨hafter, hrest⟩)
        · exact .inl (.later hspoils)
        · by_cases hreplaces : a.Replaces f
          · rcases hreplaces with hdirect | hwhole
            · rw [value_after_direct s hdirect] at hafter
              exact .inl (.here hdirect hafter hrest)
            · exact absurd (holds_after_whole s hwhole) hafter
          · rw [value_after_of_not_replaces s hreplaces] at hafter
            exact .inr ⟨hafter, List.forall_mem_cons.mpr ⟨hreplaces, hrest⟩⟩
      · rintro (hspoils | ⟨hbefore, hnone⟩)
        · cases hspoils with
          | here hdirect hvalue hrest =>
              rw [← value_after_direct s hdirect] at hvalue
              exact .inr ⟨hvalue, hrest⟩
          | later hspoils => exact .inl hspoils
        · obtain ⟨hfirst, hrest⟩ := List.forall_mem_cons.mp hnone
          rw [← value_after_of_not_replaces s hfirst] at hbefore
          exact .inr ⟨hbefore, hrest⟩

/-- After any assignments to a configuration that was read, every setting holds what it may hold
exactly if none of them was assigned, by itself, a value that it may not hold and left with it. An
assignment that is refused changes nothing. -/
theorem valid_after_iff {given : List (Value × Value)} (hc : Config.ofEntries given = .ok c)
    (steps : List Assignment) :
    ((∀ f : Field, f.Holds (((ofConfig c).afterAll steps).value f)) ↔ ∀ f, ¬ Spoils f steps) ∧
      ∀ (s : Settings) a e, ((assign a.names a.value).run s).1 = .error e → s.after a = s := by
  have hvalid := Config.of_entries_is_valid hc
  refine ⟨forall_congr' fun f => ?_, fun s a e => after_of_refused⟩
  have hspoils : ¬ f.Holds (((ofConfig c).afterAll steps).value f) ↔ Spoils f steps := by
    rw [not_holds_after_all_iff]
    constructor
    · rintro (hspoils | ⟨hbefore, -⟩)
      · exact hspoils
      · exact absurd (hvalid f) hbefore
    · exact .inl
  rw [← hspoils, Classical.not_not]

/-- A suffix with a separator is gone when its section is assigned anew. -/
theorem valid_after_iff_anew :
    let steps : List Assignment :=
      [⟨["output", "suffix"], .text "a/b"⟩, ⟨["output"], .map []⟩]
    Config.ofEntries [] = .ok {} ∧
      ∀ f : Field, f.Holds (((ofConfig {}).afterAll steps).value f) := by
  intro steps
  have hc : Config.ofEntries [] = .ok {} := rfl
  refine ⟨hc, (valid_after_iff hc steps).1.mpr ?_⟩
  intro f (hspoils : Spoils f [_, _])
  have hwhole : Assignment.IsWhole ⟨["output"], .map []⟩ .output :=
    ⟨rfl, [], rfl, fun f _ => nofun⟩
  cases hspoils with
  | here hdirect _ hrest =>
      have hsuffix : Assignment.IsDirect ⟨["output", "suffix"], .text "a/b"⟩ .suffix := rfl
      obtain rfl := hdirect.unique hsuffix
      exact hrest _ List.mem_cons_self (.inr hwhole)
  | later hspoils =>
      cases hspoils with
      | here hdirect => exact hwhole.not_is_direct hdirect
      | later hspoils => cases hspoils

/-- A suffix with a separator is assigned to the default configuration, which is not valid
afterwards. -/
theorem separator_assigned :
    let outcome := (assign ["output", "suffix"] (.text "a/b")).run (ofConfig {})
    Config.ofEntries [] = .ok {} ∧ outcome.1 = .ok () ∧
      ¬ Field.suffix.Holds (outcome.2.value .suffix) := by
  refine ⟨rfl, rfl, ?_⟩
  show ¬ Field.suffix.Holds (.text "a/b")
  intro h
  cases h with
  | text hallows =>
      have hrefused : ¬ Field.suffix.Allows "a/b" := by decide
      exact hrefused hallows

end Settings

end TypeSuite
