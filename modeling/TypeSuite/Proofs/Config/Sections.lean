import TypeSuite.Proofs.Config.Entries
import TypeSuite.Proofs.Config.Fields
import TypeSuite.Proofs.Step.Run

/-!
# Reading sections

A configuration is read from entries, section by section and setting by setting. `of_entries_iff`
says when that succeeds and what each setting then holds: what it takes from the value that it is
given, or the default.
-/

namespace TypeSuite

namespace Field

/-- A setting takes the value that it is given, if there is one. -/
def Suits (f : Field) (given : Option Value) : Prop :=
  ∀ v, given = some v → ∃ content, f.Takes v content

/-- What a setting holds after it is read: what it takes from the value that it is given, and what
it held before when there is none. -/
def Reads (f : Field) (given : Option Value) (before after : Option String) : Prop :=
  match given with
  | some v => f.Takes v after
  | none => after = before

variable {f : Field} {given : Option Value} {before after other : Option String}

/-- What is read over what a setting may hold, it may hold. -/
theorem Reads.holds (h : f.Reads given before after)
    (hbefore : f.Holds (Config.settingValue before)) : f.Holds (Config.settingValue after) := by
  cases given with
  | none => rwa [show after = before from h]
  | some v => exact Takes.holds h

/-- A setting is read in one way. -/
theorem Reads.unique (h : f.Reads given before after) (hother : f.Reads given before other) :
    after = other := by
  cases given with
  | none => exact h.trans hother.symm
  | some v => exact Takes.unique h hother

end Field

namespace Section

variable {name : String} {part : Section}

/-- The name of a section leads to that section. -/
theorem of_name_eq_some_iff : ofName? name = some part ↔ part.name = name := by
  constructor
  · intro h
    have hname := List.find?_some h
    exact eq_of_beq hname
  · rintro rfl
    cases part <;> decide

end Section

namespace Config

variable {part : Section} {inner entries : List (Value × Value)} {draft : Draft}

/-- Settings in a scope are read from what they are given, and all others stay as they are. -/
def Changes (scope : Field → Prop) (given : Field → Option Value) (before after : Config) : Prop :=
  ∀ f, (scope f → f.Reads (given f) (before.get f) (after.get f)) ∧
    (¬ scope f → after.get f = before.get f)

/-! ## Reading one after the other -/

section Fold

variable {α : Type} {step : Draft → α → Draft} {good : α → Prop} {scope : α → Field → Prop}
  {given : Field → Option Value}

/-- Steps end without mistakes exactly if each of them makes none. -/
theorem fold_clean_iff
    (hclean : ∀ draft a, (step draft a).mistakes = [] ↔ draft.mistakes = [] ∧ good a)
    (steps : List α) :
    (steps.foldl step draft).mistakes = [] ↔ draft.mistakes = [] ∧ ∀ a ∈ steps, good a := by
  induction steps generalizing draft with
  | nil => simp
  | cons a rest ih => rw [List.foldl_cons, ih, hclean, List.forall_mem_cons, and_assoc]

/-- Steps without mistakes read the settings in their scopes when no setting is in two of them. -/
theorem fold_changes (draft : Draft)
    (hchanges : ∀ draft a, good a → Changes (scope a) given draft.config (step draft a).config)
    {steps : List α} (hdisjoint : steps.Pairwise fun a b => ∀ f, scope a f → ¬ scope b f)
    (hgood : ∀ a ∈ steps, good a) :
    Changes (fun f => ∃ a ∈ steps, scope a f) given draft.config
      (steps.foldl step draft).config := by
  induction steps generalizing draft with
  | nil => exact fun f => ⟨nofun, fun _ => rfl⟩
  | cons a rest ih =>
      obtain ⟨hfirst, hothers⟩ := List.pairwise_cons.mp hdisjoint
      have hstep := hchanges draft a (hgood a List.mem_cons_self)
      have hrest : Changes (fun f => ∃ b ∈ rest, scope b f) given (step draft a).config
          (rest.foldl step (step draft a)).config :=
        ih _ hothers fun b hb => hgood b (List.mem_cons_of_mem _ hb)
      intro f
      constructor
      · rintro ⟨b, hb, hscope⟩
        rcases List.mem_cons.mp hb with rfl | hb
        · -- What the first step has read stays, since no later one has it in its scope.
          have hlater : ¬ ∃ c ∈ rest, scope c f := fun ⟨c, hc, hmem⟩ => hfirst c hc f hscope hmem
          rw [List.foldl_cons, (hrest f).2 hlater]
          exact (hstep f).1 hscope
        · have hbefore := (hstep f).2 fun hmem => hfirst b hb f hmem hscope
          rw [← hbefore]
          exact (hrest f).1 ⟨b, hb, hscope⟩
      · intro hnone
        have hlater : ¬ ∃ b ∈ rest, scope b f := fun ⟨b, hb, hmem⟩ =>
          hnone ⟨b, List.mem_cons_of_mem _ hb, hmem⟩
        rw [List.foldl_cons, (hrest f).2 hlater]
        exact (hstep f).2 fun hmem => hnone ⟨a, List.mem_cons_self, hmem⟩

end Fold

/-! ## Settings of a section -/

/-- Reading a setting makes a mistake exactly if the setting does not take what it is given. -/
theorem read_field_clean_iff (draft : Draft) (f : Field) :
    (readField part inner draft f).mistakes = [] ↔
      draft.mistakes = [] ∧ f.Suits (Value.find? inner f.name) := by
  rw [readField, Field.Suits]
  cases Value.find? inner f.name with
  | none => simp
  | some v =>
      cases haccept : f.accept v with
      | ok content =>
          have htakes : ∃ content, f.Takes v content := ⟨_, Field.accept_eq_ok_iff.mp haccept⟩
          simp [haccept, htakes]
      | error issue =>
          have hrefuses : ¬ ∃ content, f.Takes v content := by
            rintro ⟨content, htakes⟩
            rw [Field.accept_eq_ok_iff.mpr htakes] at haccept
            cases haccept
          simp [haccept, hrefuses]

/-- Reading a setting leaves the others as they are. -/
theorem read_field_changes (draft : Draft) (f : Field)
    (h : f.Suits (Value.find? inner f.name)) :
    Changes (· = f) (fun g => Value.find? inner g.name) draft.config
      (readField part inner draft f).config := by
  rw [readField]
  cases hfound : Value.find? inner f.name with
  | none =>
      refine fun g => ⟨?_, fun _ => rfl⟩
      rintro rfl
      show g.Reads (Value.find? inner g.name) _ _
      rw [hfound]
      rfl
  | some v =>
      obtain ⟨content, htakes⟩ := h v hfound
      simp only [Field.accept_eq_ok_iff.mpr htakes]
      refine fun g => ⟨?_, fun hg => get_set_of_ne hg ..⟩
      rintro rfl
      show g.Reads (Value.find? inner g.name) _ _
      rw [hfound, get_set_self _ htakes.is_some]
      exact htakes

/-- Reading a section makes a mistake exactly if it is no mapping or if one of its settings does not
take what it is given. -/
theorem read_section_clean_iff {v : Value} :
    (readSection draft part v).mistakes = [] ↔
      draft.mistakes = [] ∧ ∃ inner, v = .map inner ∧
        ∀ f : Field, f.sectionOf = part → f.Suits (Value.find? inner f.name) := by
  cases v with
  | map inner =>
      rw [readSection, fold_clean_iff read_field_clean_iff]
      simp only [Field.mem_fields_iff, Value.map.injEq, exists_eq_left']
  | _ => simp [readSection]

/-- Reading a section leaves the other sections as they are. -/
theorem read_section_changes (draft : Draft)
    (h : ∀ f : Field, f.sectionOf = part → f.Suits (Value.find? inner f.name)) :
    Changes (·.sectionOf = part) (fun f => Value.find? inner f.name) draft.config
      (readSection draft part (.map inner)).config := by
  have hdistinct : part.fields.Nodup := by cases part <;> decide
  have hscope : (fun f : Field => ∃ g ∈ part.fields, f = g) = (·.sectionOf = part) := by
    funext f
    rw [exists_eq_right', Field.mem_fields_iff]
  rw [← hscope, readSection]
  -- Each setting is the scope of one step, and no setting is listed twice.
  refine fold_changes draft read_field_changes (hdistinct.imp ?_) fun f hf =>
    h f (Field.mem_fields_iff.mp hf)
  rintro f g hne _ rfl rfl
  exact hne rfl

/-! ## Sections -/

/-- The value that entries give to a setting: the one under its name in the mapping under the name
of its section. -/
def given? (entries : List (Value × Value)) (f : Field) : Option Value :=
  (Value.find? entries f.sectionOf.name).bind fun v =>
    v.entries?.bind fun inner => Value.find? inner f.name

/-- Reads a section if there is one under its name. -/
def readPart (entries : List (Value × Value)) (draft : Draft) (part : Section) : Draft :=
  match Value.find? entries part.name with
  | none => draft
  | some v => readSection draft part v

/-- A section is a mapping if it is there, and each of its settings takes what it is given. -/
def PartSuits (entries : List (Value × Value)) (part : Section) : Prop :=
  (∀ v, Value.find? entries part.name = some v → ∃ inner, v = .map inner) ∧
    ∀ f : Field, f.sectionOf = part → f.Suits (given? entries f)

/-- What a setting is given by a mapping under the name of its section. -/
theorem given_of_find {f : Field} (h : Value.find? entries f.sectionOf.name = some (.map inner)) :
    given? entries f = Value.find? inner f.name := by
  rw [given?, h]
  rfl

/-- A setting of a section that is not there is given nothing. -/
theorem given_of_find_none {f : Field} (h : Value.find? entries f.sectionOf.name = none) :
    given? entries f = none := by
  rw [given?, h]
  rfl

/-- Reading a section that may be there makes a mistake exactly if it does not suit. -/
theorem read_part_clean_iff (draft : Draft) (part : Section) :
    (readPart entries draft part).mistakes = [] ↔
      draft.mistakes = [] ∧ PartSuits entries part := by
  rw [readPart, PartSuits]
  cases hfound : Value.find? entries part.name with
  | none =>
      refine ⟨fun h => ⟨h, nofun, ?_⟩, fun h => h.1⟩
      rintro f rfl v hv
      rw [given_of_find_none hfound] at hv
      cases hv
  | some v =>
      dsimp only
      rw [read_section_clean_iff]
      refine and_congr_right fun _ => ⟨?_, ?_⟩
      · rintro ⟨inner, rfl, hsuits⟩
        refine ⟨fun w hw => ⟨inner, (Option.some.inj hw).symm⟩, ?_⟩
        rintro f rfl
        rw [given_of_find hfound]
        exact hsuits f rfl
      · rintro ⟨hmap, hsuits⟩
        obtain ⟨inner, rfl⟩ := hmap v rfl
        refine ⟨inner, rfl, ?_⟩
        rintro f rfl
        rw [← given_of_find hfound]
        exact hsuits f rfl

/-- Reading a section that may be there leaves the other sections as they are. -/
theorem read_part_changes (draft : Draft) (part : Section) (h : PartSuits entries part) :
    Changes (·.sectionOf = part) (given? entries) draft.config
      (readPart entries draft part).config := by
  rw [readPart]
  cases hfound : Value.find? entries part.name with
  | none =>
      refine fun f => ⟨?_, fun _ => rfl⟩
      rintro rfl
      rw [given_of_find_none hfound]
      rfl
  | some v =>
      obtain ⟨inner, rfl⟩ := h.1 v hfound
      have hsuits : ∀ f : Field, f.sectionOf = part → f.Suits (Value.find? inner f.name) := by
        rintro f rfl
        rw [← given_of_find hfound]
        exact h.2 f rfl
      have hread := read_section_changes draft hsuits
      refine fun f => ⟨?_, (hread f).2⟩
      rintro rfl
      rw [given_of_find hfound]
      exact (hread f).1 rfl

/-! ## Configurations -/

/-- Entries that a configuration can be read from: each key is the name of a section, each section
is a mapping, and each setting takes what it is given. -/
structure Suits (entries : List (Value × Value)) : Prop where
  keys : ∀ key v, Value.find? entries key = some v →
    ∃ part : Section, ∃ inner, part.name = key ∧ v = .map inner
  settings : ∀ f, Field.Suits f (given? entries f)

/-- No key is unexpected exactly if all of them are names of sections. -/
theorem unexpected_keys_eq_nil_iff :
    unexpectedKeys entries = [] ↔
      ∀ key v, Value.find? entries key = some v → ∃ part : Section, part.name = key := by
  rw [unexpectedKeys, List.filterMap_eq_nil_iff]
  constructor
  · intro h key v hfound
    have hkey := h _ (Value.mem_of_find hfound)
    cases hname : Section.ofName? key with
    | none => simp [Value.text?, hname] at hkey
    | some part => exact ⟨part, Section.of_name_eq_some_iff.mp hname⟩
  · rintro h ⟨k, v⟩ hmem
    cases hkey : k.text? with
    | none => rfl
    | some key =>
        obtain rfl : k = .text key := by
          cases k <;> cases hkey
          rfl
        cases hfound : Value.find? entries key with
        | none => exact absurd hmem (Value.find_eq_none_iff.mp hfound v)
        | some w =>
            obtain ⟨part, hname⟩ := h key w hfound
            simp [Section.of_name_eq_some_iff.mpr hname]

/-- All sections are read without mistakes exactly if each of them suits. -/
theorem read_sections_clean_iff :
    (readSections entries).mistakes = [] ↔ ∀ part, PartSuits entries part := by
  have hall : ∀ part, part ∈ Section.all := by
    intro part
    cases part <;> decide
  have hfold : readSections entries = Section.all.foldl (readPart entries) ⟨{}, []⟩ := rfl
  rw [hfold, fold_clean_iff read_part_clean_iff]
  simp [hall]

/-- Sections that suit are read over the defaults. -/
theorem read_sections_changes (h : ∀ part, PartSuits entries part) (f : Field) :
    f.Reads (given? entries f) (Config.get {} f) ((readSections entries).config.get f) := by
  have hdisjoint : Section.all.Pairwise fun part other =>
      ∀ g : Field, g.sectionOf = part → ¬ g.sectionOf = other := by
    have hdistinct : Section.all.Nodup := by decide
    refine hdistinct.imp ?_
    rintro part other hne g rfl rfl
    exact hne rfl
  have hread := fold_changes ⟨{}, []⟩ read_part_changes hdisjoint fun part _ => h part
  have hpart : f.sectionOf ∈ Section.all := by cases f <;> decide
  exact (hread f).1 ⟨_, hpart, rfl⟩

/-- Entries suit exactly if each section suits and no key is unexpected. -/
theorem suits_iff :
    Suits entries ↔ (∀ part, PartSuits entries part) ∧ unexpectedKeys entries = [] := by
  rw [unexpected_keys_eq_nil_iff]
  constructor
  · intro h
    refine ⟨fun part => ⟨fun v hv => ?_, fun f _ => h.settings f⟩, fun key v hv => ?_⟩
    · obtain ⟨-, inner, -, hmap⟩ := h.keys _ v hv
      exact ⟨inner, hmap⟩
    · obtain ⟨part, -, hname, -⟩ := h.keys key v hv
      exact ⟨part, hname⟩
  · rintro ⟨hparts, hkeys⟩
    refine ⟨fun key v hv => ?_, fun f => (hparts f.sectionOf).2 f rfl⟩
    obtain ⟨part, rfl⟩ := hkeys key v hv
    obtain ⟨inner, hmap⟩ := (hparts part).1 v hv
    exact ⟨part, inner, rfl, hmap⟩

/-- A configuration is read from entries exactly if they suit and each setting holds what it takes
from the value that it is given, or its default when it is given none. -/
theorem of_entries_iff {c : Config} :
    ofEntries entries = .ok c ↔
      Suits entries ∧ ∀ f : Field, f.Reads (given? entries f) (Config.get {} f) (c.get f) := by
  have hcases : (readSections entries).mistakes ++ unexpectedKeys entries = [] ↔ Suits entries := by
    rw [List.append_eq_nil_iff, read_sections_clean_iff, suits_iff]
  rw [ofEntries]
  by_cases hsuits : Suits entries
  · have hread := read_sections_changes (suits_iff.mp hsuits).1
    simp only [hcases.mpr hsuits, Except.ok.injEq, hsuits, true_and]
    constructor
    · rintro rfl
      exact hread
    · intro h
      exact eq_of_get fun f => (hread f).unique (h f)
  · refine iff_of_false (fun h => ?_) fun h => hsuits h.1
    split at h
    case h_1 hnone => exact hsuits (hcases.mp hnone)
    case h_2 => cases h

/-- A configuration is read from entries that suit. -/
theorem of_entries_ok (h : Suits entries) : ∃ c, ofEntries entries = .ok c :=
  ⟨_, of_entries_iff.mpr ⟨h, read_sections_changes (suits_iff.mp h).1⟩⟩

/-- Entries that do not suit are refused with their mistakes, of which there are some. -/
theorem of_entries_error (h : ¬ Suits entries) :
    ∃ mistakes, mistakes ≠ [] ∧ ofEntries entries = .error mistakes := by
  cases hread : ofEntries entries with
  | ok c => exact absurd (of_entries_iff.mp hread).1 h
  | error mistakes =>
      refine ⟨mistakes, ?_, rfl⟩
      rintro rfl
      rw [ofEntries] at hread
      split at hread
      case h_1 => cases hread
      case h_2 hsome => exact hsome (Except.error.inj hread)

/-- A configuration that is read from entries is valid. -/
theorem of_entries_is_valid {c : Config} (h : ofEntries entries = .ok c) : c.IsValid :=
  fun f => ((of_entries_iff.mp h).2 f).holds (default_is_valid f)

/-- A mapping whose keys are texts is read from its entries. -/
theorem of_mapping_of_texts (h : Value.HasTextKeys entries) :
    ofMapping entries = (ofEntries entries).mapError .mistaken := by
  rw [ofMapping, if_pos (Value.all_keys_iff.mpr h)]

/-- A mapping with a key that is no text gives no configuration. -/
theorem of_mapping_of_bad_key (h : ¬ Value.HasTextKeys entries) :
    ofMapping entries = .error .badKey := by
  rw [ofMapping, if_neg fun hall => h (Value.all_keys_iff.mp hall)]

/-- A mapping gives a configuration exactly if its keys are texts and its entries give it. -/
theorem of_mapping_iff {c : Config} :
    ofMapping entries = .ok c ↔ Value.HasTextKeys entries ∧ ofEntries entries = .ok c := by
  by_cases hkeys : Value.HasTextKeys entries
  · rw [of_mapping_of_texts hkeys, and_iff_right hkeys]
    exact Step.map_error_eq_ok_iff
  · rw [of_mapping_of_bad_key hkeys]
    constructor
    · intro h
      cases h
    · exact fun h => absurd h.1 hkeys

end Config

end TypeSuite
