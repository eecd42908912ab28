import TypeSuite.Build.Basic
import TypeSuite.Proofs.Config.Sections

/-!
# Overrides

A builder is made from a configuration and overrides, which are laid over the entries of the
configuration before these are read anew. `make_overrides` says when that succeeds and what each
setting then holds: what it takes from the overrides, or what it held before. It also says which
overrides are refused with their mistakes, and that a key that is no text is refused in another way.
-/

namespace TypeSuite

namespace Value

/-- Entries of an object: no text is a key twice, in them or in a mapping under one of them. -/
structure IsObject (entries : List (Value × Value)) : Prop where
  distinct : DistinctKeys entries
  inner : ∀ e ∈ entries, ∀ inner, e.2 = .map inner → DistinctKeys inner

variable {entries : List (Value × Value)} {key : String} {k v : Value}

/-- Each of distinct entries is found under its key. -/
theorem DistinctKeys.find_of_mem (h : DistinctKeys entries) (hmem : (.text key, v) ∈ entries) :
    find? entries key = some v := by
  induction entries with
  | nil => cases hmem
  | cons e rest ih =>
      rcases List.mem_cons.mp hmem with rfl | hrest
      · exact find_cons_self ..
      · obtain ⟨k, w⟩ := e
        by_cases hk : k = .text key
        · subst hk
          exact absurd hrest (find_eq_none_iff.mp h.find_rest v)
        · rw [find_cons_of_ne hk]
          exact ih h.rest hrest

/-- Nothing but a mapping is laid over a value as a mapping. -/
theorem eq_map_of_atop {old : Option Value} {entries : List (Value × Value)}
    (h : v.atop old = .map entries) : ∃ inner, v = .map inner := by
  cases old with
  | none => exact ⟨entries, h⟩
  | some old =>
      cases v with
      | map inner => exact ⟨inner, rfl⟩
      | _ => simp [atop, overlay] at h

end Value

namespace Config

variable {c : Config} {f : Field} {overrides inner : List (Value × Value)}

/-- The keys of a configuration are texts. -/
theorem has_text_keys_part_entries (c : Config) : Value.HasTextKeys c.partEntries :=
  List.forall_mem_map.mpr fun part _ => ⟨part.name, rfl⟩

/-- Under the name of a section, its entries are found. -/
theorem find_part_entries (c : Config) (part : Section) :
    Value.find? c.partEntries part.name = some (.map (c.fieldEntries part)) := by
  cases part <;> rfl

/-- Only the names of sections are keys of a configuration. -/
theorem name_of_find_part_entries {key : String} {v : Value}
    (h : Value.find? c.partEntries key = some v) : ∃ part : Section, part.name = key := by
  obtain ⟨part, -, hpart⟩ := List.mem_map.mp (Value.mem_of_find h)
  exact ⟨part, Value.text.inj (Prod.mk.inj hpart).1⟩

/-- Under the name of a setting, its value is found. -/
theorem find_field_entries (c : Config) (f : Field) :
    Value.find? (c.fieldEntries f.sectionOf) f.name = some (settingValue (c.get f)) := by
  cases f <;> rfl

/-- What is laid over a setting takes its place. -/
theorem atop_setting (v : Value) (content : Option String) :
    v.atop (some (settingValue content)) = v := by
  cases content <;> cases v <;> rfl

/-- A mapping that is laid over another is merged with it. -/
theorem atop_map (inner base : List (Value × Value)) :
    (Value.map inner).atop (some (.map base)) = .map (Value.overlayEntries inner base) := by
  show Value.overlay _ _ = _
  rw [Value.overlay]

/-- Overrides whose keys are texts are read from the entries of the configuration with the overrides
laid over them. -/
theorem override_of_texts (c : Config) (h : Value.HasTextKeys overrides) :
    c.override overrides =
      (ofEntries (Value.overlayEntries overrides c.partEntries)).mapError .mistaken :=
  of_mapping_of_texts ((Value.has_text_keys_overlay _).mpr ⟨h, c.has_text_keys_part_entries⟩)

/-- Overrides with a key that is no text are refused for it. -/
theorem override_of_bad_key (c : Config) (h : ¬ Value.HasTextKeys overrides) :
    c.override overrides = .error .badKey :=
  of_mapping_of_bad_key fun hall => h ((Value.has_text_keys_overlay _).mp hall).1

/-- With overrides laid over a configuration, a setting is given what they give it, and what it
held when they give it nothing. -/
theorem given_overlay (c : Config) (f : Field) (hobject : Value.IsObject overrides)
    (hmap : ∀ v, Value.find? overrides f.sectionOf.name = some v → ∃ inner, v = .map inner) :
    given? (Value.overlayEntries overrides c.partEntries) f =
      some ((given? overrides f).getD (settingValue (c.get f))) := by
  cases hfound : Value.find? overrides f.sectionOf.name with
  | none =>
      have hpart := Value.find_overlay_of_none hobject.distinct hfound c.partEntries
      rw [find_part_entries] at hpart
      rw [given_of_find hpart, given_of_find_none hfound, find_field_entries]
      rfl
  | some v =>
      obtain ⟨inner, rfl⟩ := hmap v hfound
      have hinner : Value.DistinctKeys inner :=
        hobject.inner _ (Value.mem_of_find hfound) inner rfl
      have hpart := Value.find_overlay_of_some hobject.distinct hfound c.partEntries
      rw [find_part_entries, atop_map] at hpart
      rw [given_of_find hpart, given_of_find hfound]
      cases hvalue : Value.find? inner f.name with
      | none => rw [Value.find_overlay_of_none hinner hvalue, find_field_entries]; rfl
      | some w =>
          rw [Value.find_overlay_of_some hinner hvalue, find_field_entries, atop_setting]
          rfl

/-- Each entry is a section with a mapping under its name. -/
def AreSections (overrides : List (Value × Value)) : Prop :=
  ∀ e ∈ overrides, ∃ part : Section, ∃ inner, e = (.text part.name, .map inner)

/-- Overrides that a configuration admits: each key is the name of a section with a mapping under
it, and each setting takes what it is given. -/
structure Admits (overrides : List (Value × Value)) : Prop where
  sections : AreSections overrides
  settings : ∀ f : Field, f.Suits (given? overrides f)

/-- Overrides give a mapping under each key of theirs when their entries are sections. -/
theorem AreSections.map {key : String} {v : Value} (h : AreSections overrides)
    (hfound : Value.find? overrides key = some v) : ∃ inner, v = .map inner := by
  obtain ⟨_, inner, heq⟩ := h _ (Value.mem_of_find hfound)
  exact ⟨inner, (Prod.mk.inj heq).2⟩

/-- The keys of sections are texts. -/
theorem AreSections.texts (h : AreSections overrides) : Value.HasTextKeys overrides := by
  intro e he
  obtain ⟨part, inner, rfl⟩ := h e he
  exact ⟨part.name, rfl⟩

/-- The overrides are sections when their keys are texts and they suit, laid over a
configuration. -/
theorem sections_of_suits (hobject : Value.IsObject overrides)
    (htexts : Value.HasTextKeys overrides)
    (h : Suits (Value.overlayEntries overrides c.partEntries)) : AreSections overrides := by
  rintro ⟨k, v⟩ hmem
  obtain ⟨key, rfl⟩ : ∃ key, k = .text key := htexts _ hmem
  have hlaid := Value.find_overlay_of_some hobject.distinct
    (hobject.distinct.find_of_mem hmem) c.partEntries
  obtain ⟨part, entries, rfl, hentries⟩ := h.keys key _ hlaid
  obtain ⟨inner, rfl⟩ := Value.eq_map_of_atop hentries
  exact ⟨part, inner, rfl⟩

/-- Laid over a configuration, sections are found as sections with mappings. -/
theorem part_of_find_overlay (hobject : Value.IsObject overrides) (h : AreSections overrides)
    {key : String} {v : Value}
    (hfound : Value.find? (Value.overlayEntries overrides c.partEntries) key = some v) :
    ∃ part : Section, ∃ inner, part.name = key ∧ v = .map inner := by
  cases hover : Value.find? overrides key with
  | none =>
      rw [Value.find_overlay_of_none hobject.distinct hover] at hfound
      obtain ⟨part, rfl⟩ := name_of_find_part_entries hfound
      rw [find_part_entries] at hfound
      exact ⟨part, _, rfl, (Option.some.inj hfound).symm⟩
  | some w =>
      obtain ⟨part, inner, heq⟩ := h _ (Value.mem_of_find hover)
      obtain ⟨hkey, rfl⟩ := Prod.mk.inj heq
      obtain rfl := Value.text.inj hkey
      rw [Value.find_overlay_of_some hobject.distinct hover, find_part_entries, atop_map] at hfound
      exact ⟨part, _, rfl, (Option.some.inj hfound).symm⟩

/-- With overrides whose keys are texts laid over a valid configuration, the entries suit exactly if
the overrides are admitted. -/
theorem suits_overlay_iff (hc : c.IsValid) (hobject : Value.IsObject overrides)
    (htexts : Value.HasTextKeys overrides) :
    Suits (Value.overlayEntries overrides c.partEntries) ↔ Admits overrides := by
  constructor
  · intro h
    have hsections := sections_of_suits hobject htexts h
    refine ⟨hsections, fun f v hv => ?_⟩
    have hgiven := given_overlay c f hobject fun w hw => hsections.map hw
    rw [hv] at hgiven
    exact h.settings f v hgiven
  · intro h
    refine ⟨fun key v hv => part_of_find_overlay hobject h.sections hv, fun f v hv => ?_⟩
    rw [given_overlay c f hobject fun w hw => h.sections.map hw] at hv
    obtain rfl := Option.some.inj hv
    cases hgiven : given? overrides f with
    | none => exact ⟨_, Field.Takes.of_holds (hc f)⟩
    | some w => exact h.settings f w hgiven

/-- A setting of a valid configuration that is laid over holds what it takes from the overrides, or
what it held before when they give it nothing. -/
theorem reads_overlay_iff (hc : c.IsValid) {given : Option Value} {before after : Option String} :
    f.Reads (some (given.getD (settingValue (c.get f)))) before after ↔
      f.Reads given (c.get f) after := by
  cases given with
  | none =>
      have hkept : f.Takes (settingValue (c.get f)) (c.get f) := .of_holds (hc f)
      constructor
      · intro h
        exact Field.Takes.unique h hkept
      · intro h
        rwa [show after = c.get f from h]
  | some v => exact Iff.rfl

/-- Overrides that are admitted change a valid configuration in the settings that they give a value
to. -/
theorem override_iff (hc : c.IsValid) (hobject : Value.IsObject overrides) {d : Config} :
    c.override overrides = .ok d ↔
      Admits overrides ∧ ∀ f : Field, f.Reads (given? overrides f) (c.get f) (d.get f) := by
  by_cases htexts : Value.HasTextKeys overrides
  · have hkeys := (Value.has_text_keys_overlay c.partEntries).mpr
      ⟨htexts, c.has_text_keys_part_entries⟩
    rw [override, of_mapping_iff, and_iff_right hkeys, of_entries_iff,
      suits_overlay_iff hc hobject htexts]
    refine and_congr_right fun h => forall_congr' fun f => ?_
    rw [given_overlay c f hobject fun w hw => h.sections.map hw, reads_overlay_iff hc]
  · rw [override_of_bad_key c htexts]
    exact iff_of_false nofun fun h => htexts h.1.sections.texts

/-- Overrides of a valid configuration are refused for a key that is no text, or else for mistakes
when they are not admitted, or else they are accepted. -/
theorem override_cases (hc : c.IsValid) (hobject : Value.IsObject overrides) :
    (¬ Value.HasTextKeys overrides ∧ c.override overrides = .error .badKey) ∨
    (Value.HasTextKeys overrides ∧ ¬ Admits overrides ∧
      ∃ mistakes, mistakes ≠ [] ∧ c.override overrides = .error (.mistaken mistakes)) ∨
    (Admits overrides ∧ ∃ d, c.override overrides = .ok d) := by
  by_cases htexts : Value.HasTextKeys overrides
  · right
    have hsuits := suits_overlay_iff hc hobject htexts
    by_cases hadmits : Admits overrides
    · obtain ⟨d, hd⟩ := of_entries_ok (hsuits.mpr hadmits)
      exact .inr ⟨hadmits, d, by rw [override_of_texts c htexts, hd]; rfl⟩
    · obtain ⟨mistakes, hsome, herror⟩ := of_entries_error fun h => hadmits (hsuits.mp h)
      exact .inl ⟨htexts, hadmits, mistakes, hsome,
        by rw [override_of_texts c htexts, herror]; rfl⟩
  · exact .inl ⟨htexts, override_of_bad_key c htexts⟩

/-- A valid configuration stays as it is when nothing is laid over it. -/
theorem override_nil (hc : c.IsValid) : c.override [] = .ok c := by
  have hobject : Value.IsObject [] := ⟨List.nodup_nil, nofun⟩
  have hadmits : Admits [] := ⟨nofun, nofun⟩
  exact (override_iff hc hobject).mpr ⟨hadmits, fun _ => rfl⟩

end Config

namespace Builder

variable {overrides given : List (Value × Value)} {c : Config}

/-- A builder of a valid configuration is made from what the overrides make of it. -/
theorem make_eq (hc : c.IsValid) (overrides : List (Value × Value)) :
    make c overrides = ofConfig <$> c.override overrides := by
  cases overrides with
  | nil =>
      rw [Config.override_nil hc]
      rfl
  | cons e rest => rfl

/-- A builder is made from a configuration and overrides exactly if each key of the overrides is the
name of a section with a mapping under it, and each setting takes the value that it is given there.
A setting then holds what it takes, null included, or what it held before when it is given nothing.
Anything else in the overrides has no effect. Overrides that are not of this kind are refused with
their mistakes when all their keys are texts. A key at the top that is no text is refused without
them, whatever else is there. The configuration itself is a value, which stays what it is. -/
theorem make_overrides (hc : Config.ofEntries given = .ok c) (hobject : Value.IsObject overrides) :
    ((∃ b, make c overrides = .ok b) ↔ Config.Admits overrides) ∧
    (∀ b, make c overrides = .ok b → b = ofConfig b.config ∧
      ∀ f : Field, f.Reads (Config.given? overrides f) (c.get f) (b.config.get f)) ∧
    ((∃ mistakes, mistakes ≠ [] ∧ make c overrides = .error (.mistaken mistakes)) ↔
      Value.HasTextKeys overrides ∧ ¬ Config.Admits overrides) ∧
    (make c overrides = .error .badKey ↔ ¬ Value.HasTextKeys overrides) ∧
    (Config.AreSections overrides → (∀ f, Config.given? overrides f = none) →
      make c overrides = .ok (ofConfig c)) := by
  have hvalid := Config.of_entries_is_valid hc
  have hsame : Config.AreSections overrides → (∀ f, Config.given? overrides f = none) →
      make c overrides = .ok (ofConfig c) := by
    intro hsections hnone
    have hadmits : Config.Admits overrides := ⟨hsections, fun f => by
      rw [hnone f]
      exact nofun⟩
    have hkept : c.override overrides = .ok c :=
      (Config.override_iff hvalid hobject).mpr ⟨hadmits, fun f => by
        rw [hnone f]
        rfl⟩
    rw [make_eq hvalid, hkept]
    rfl
  obtain ⟨htexts, herror⟩ | ⟨htexts, hrefused, mistakes, hsome, herror⟩ | ⟨hadmits, d, hd⟩ :=
    Config.override_cases hvalid hobject
  · have hmake : make c overrides = .error .badKey := by
      rw [make_eq hvalid, herror]
      rfl
    have hno : ¬ Config.Admits overrides := fun h => htexts h.sections.texts
    refine ⟨?_, ?_, ?_, ?_, hsame⟩ <;> simp [hmake, htexts, hno]
  · have hmake : make c overrides = .error (.mistaken mistakes) := by
      rw [make_eq hvalid, herror]
      rfl
    refine ⟨?_, ?_, ?_, ?_, hsame⟩ <;> simp [hmake, htexts, hrefused, hsome]
  · have hmake : make c overrides = .ok (ofConfig d) := by
      rw [make_eq hvalid, hd]
      rfl
    have hreads := ((Config.override_iff hvalid hobject).mp hd).2
    refine ⟨⟨fun _ => hadmits, fun _ => ⟨_, hmake⟩⟩, fun b hb => ?_, ?_, ?_, hsame⟩
    · obtain rfl := Except.ok.inj (hmake.symm.trans hb)
      exact ⟨rfl, hreads⟩
    · simp [hmake, hadmits]
    · simp [hmake, hadmits.sections.texts]

/-- Over a level and a directory that were set, a level in another spelling is taken, null takes the
directory back, and an unknown key has no effect. -/
theorem make_overrides_null :
    let given : List (Value × Value) :=
      [(.text "logging", .map [(.text "level", .text "debug")]),
        (.text "output", .map [(.text "out_dir", .text "lib")])]
    let overrides : List (Value × Value) :=
      [(.text "output", .map [(.text "out_dir", .null), (.text "color", .bool true)]),
        (.text "logging", .map [(.text "level", .text "Error")])]
    ∃ c, Config.ofEntries given = .ok c ∧ Value.IsObject overrides ∧
      ∃ b, make c overrides = .ok b ∧ b.config.get .outDir = none ∧
        b.config.get .level = some "ERROR" ∧ b.config.get .suffix = c.get .suffix := by
  intro given overrides
  have hc : Config.ofEntries given =
      .ok { output := { outDir := some "lib" }, logging := { level := "DEBUG" } } := by
    rfl
  have hentries : ∀ {e}, e ∈ overrides → e = (.text "output", _) ∨ e = (.text "logging", _) :=
    fun he => by rwa [List.mem_cons, List.mem_singleton] at he
  have hobject : Value.IsObject overrides := by
    refine ⟨?_, ?_⟩
    · show ["output", "logging"].Nodup
      decide
    · intro e he inner hinner
      rcases hentries he with rfl | rfl
      · cases hinner
        show ["out_dir", "color"].Nodup
        decide
      · cases hinner
        show ["level"].Nodup
        decide
  obtain ⟨hmade, hsettings, -⟩ := make_overrides hc hobject
  have hadmits : Config.Admits overrides := by
    refine ⟨?_, ?_⟩
    · intro e he
      rcases hentries he with rfl | rfl
      · exact ⟨.output, _, rfl⟩
      · exact ⟨.logging, _, rfl⟩
    · intro f v hv
      cases f with
      | outDir =>
          cases hv
          exact ⟨none, .unset rfl⟩
      | level =>
          cases hv
          exact ⟨some "ERROR", .text (by decide)⟩
      | _ => cases hv
  obtain ⟨b, hb⟩ := hmade.mpr hadmits
  obtain ⟨-, hreads⟩ := hsettings b hb
  refine ⟨_, hc, hobject, b, hb, ?_, ?_, ?_⟩
  · have htakes : Field.outDir.Takes .null (b.config.get .outDir) := hreads .outDir
    exact htakes.unique (.unset rfl)
  · have htakes : Field.level.Takes (.text "Error") (b.config.get .level) := hreads .level
    exact htakes.unique (.text (by decide))
  · exact hreads .suffix

/-- An override under a number is refused without a report, and under the text of the number it is
a mistake. -/
theorem number_key_refused :
    make {} [(.scalar "1", .map [])] = .error .badKey ∧
      make {} [(.text "1", .map [])] = .error (.mistaken [⟨["1"], .unexpected⟩]) :=
  ⟨rfl, rfl⟩

end Builder

end TypeSuite
