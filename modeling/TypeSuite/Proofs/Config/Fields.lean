import TypeSuite.Config.Validate

/-!
# Rules of settings

What each setting may hold, told apart from how it is checked. `accept_eq_ok_iff` says that a value
is accepted exactly if the rule of its setting admits it, and `Takes.of_holds` that what a setting
holds is taken again unchanged.
-/

namespace TypeSuite

namespace Field

/-- What a setting makes of a text that it is given. -/
def normal (f : Field) (text : String) : String :=
  match f with
  | .level => Text.upper text
  | _ => text

/-- Whether a setting may hold a text. -/
def Allows (f : Field) (text : String) : Prop :=
  match f with
  | .suffix => '/' ∉ text.toList ∧ '\\' ∉ text.toList
  | .extension => ['.'] <+: text.toList ∧ 2 ≤ text.toList.length
  | .deferredWrapper | .fallbackName | .runtimeModule => ∃ c ∈ text.toList, Text.isBlank c = false
  | .level => text ∈ allowedLevels
  | .outDir | .header | .format | .file => True

/-- The values that a setting may hold: the texts it allows, and null where it may be unset. -/
inductive Holds (f : Field) : Value → Prop where
  | text {text : String} : f.Allows text → Holds f (.text text)
  | unset : f.isOptional = true → Holds f .null

/-- What a setting takes when it is given a value. -/
inductive Takes (f : Field) : Value → Option String → Prop where
  | text {text : String} : f.Allows (f.normal text) →
      Takes f (.text text) (some (f.normal text))
  | unset : f.isOptional = true → Takes f .null none

variable {f : Field} {text : String} {content : Option String} {v : Value}

/-! ## Checks -/

/-- A suffix is allowed exactly if no character of it is a separator. -/
theorem allows_suffix_iff : Field.suffix.Allows text ↔
    text.toList.any (fun c => c == '/' || c == '\\') = false := by
  simp only [Allows, List.any_eq_false, Bool.or_eq_true, beq_iff_eq, not_or]
  constructor
  · rintro ⟨hslash, hback⟩ c hc
    exact ⟨fun heq => hslash (heq ▸ hc), fun heq => hback (heq ▸ hc)⟩
  · intro h
    exact ⟨fun hc => (h _ hc).1 rfl, fun hc => (h _ hc).2 rfl⟩

/-- A text is not blank exactly if it holds a character that is not. -/
theorem is_blank_text_eq_false_iff :
    Text.isBlankText text = false ↔ ∃ c ∈ text.toList, Text.isBlank c = false := by
  simp [Text.isBlankText]

/-- Whether a setting may hold a text can be decided. -/
instance (f : Field) (text : String) : Decidable (f.Allows text) :=
  match f with
  | .suffix | .extension => inferInstanceAs (Decidable (_ ∧ _))
  | .deferredWrapper | .fallbackName | .runtimeModule =>
    decidable_of_iff (Text.isBlankText text = false) is_blank_text_eq_false_iff
  | .level => inferInstanceAs (Decidable (text ∈ allowedLevels))
  | .outDir | .header | .format | .file => .isTrue trivial

/-- A check gives what the setting makes of a text if the rule of the setting allows that, and
refuses the text if it does not. -/
theorem check_cases (f : Field) (text : String) :
    f.Allows (f.normal text) ∧ f.check text = .ok (f.normal text) ∨
      ¬ f.Allows (f.normal text) ∧ ∃ reason, f.check text = .error (.refused reason) := by
  cases f with
  | suffix =>
      show Field.suffix.Allows text ∧ _ ∨ ¬ Field.suffix.Allows text ∧ _
      rw [allows_suffix_iff, check]
      cases text.toList.any (fun c => c == '/' || c == '\\') with
      | false => exact .inl ⟨rfl, rfl⟩
      | true => exact .inr ⟨by decide, _, rfl⟩
  | extension =>
      rw [check]
      split
      case h_1 c rest hlist => exact .inl ⟨by simp [Allows, normal, hlist], rfl⟩
      case h_2 hlist =>
        refine .inr ⟨?_, _, rfl⟩
        rintro ⟨⟨rest, hrest⟩, hlength⟩
        change ['.'] ++ rest = text.toList at hrest
        change 2 ≤ text.toList.length at hlength
        cases rest with
        | nil =>
            rw [← hrest] at hlength
            simp at hlength
        | cons c rest => exact hlist c rest hrest.symm
  | deferredWrapper | fallbackName | runtimeModule =>
      show (∃ c ∈ text.toList, Text.isBlank c = false) ∧ _ ∨
        ¬ (∃ c ∈ text.toList, Text.isBlank c = false) ∧ _
      rw [← is_blank_text_eq_false_iff, check]
      cases Text.isBlankText text with
      | false => exact .inl ⟨rfl, rfl⟩
      | true => exact .inr ⟨by decide, _, rfl⟩
  | level =>
      show Text.upper text ∈ allowedLevels ∧ _ ∨ Text.upper text ∉ allowedLevels ∧ _
      rw [← List.contains_iff_mem, check]
      cases allowedLevels.contains (Text.upper text) with
      | true => exact .inl ⟨rfl, rfl⟩
      | false => exact .inr ⟨by decide, none, rfl⟩
  | outDir | header | format | file => exact .inl ⟨trivial, rfl⟩

/-- A value is accepted exactly as the rule of the setting says. -/
theorem accept_eq_ok_iff : f.accept v = .ok content ↔ f.Takes v content := by
  cases v with
  | text text =>
      rw [accept]
      obtain ⟨hallows, hcheck⟩ | ⟨hrefuses, reason, hcheck⟩ := f.check_cases text
      · rw [hcheck]
        constructor
        · intro h
          obtain rfl := Except.ok.inj h
          exact .text hallows
        · rintro ⟨⟩
          rfl
      · rw [hcheck]
        constructor
        · intro h
          cases h
        · rintro ⟨hallows⟩
          exact absurd hallows hrefuses
  | null =>
      rw [accept]
      by_cases hoptional : f.isOptional = true
      · rw [if_pos hoptional]
        constructor
        · intro h
          obtain rfl := Except.ok.inj h
          exact .unset hoptional
        · rintro ⟨⟩
          rfl
      · rw [if_neg hoptional]
        constructor
        · intro h
          cases h
        · intro h
          cases h with
          | unset h => exact absurd h hoptional
  | _ => exact ⟨nofun, nofun⟩

/-! ## What settings hold -/

/-- Levels are in upper case. -/
theorem upper_of_mem : ∀ level ∈ allowedLevels, Text.upper level = level := by
  decide

/-- A text that a setting allows is what the setting makes of it. -/
theorem normal_of_allows (h : f.Allows text) : f.normal text = text := by
  cases f with
  | level => exact upper_of_mem text h
  | _ => rfl

/-- What a setting takes, it may hold. -/
theorem Takes.holds (h : f.Takes v content) : f.Holds (Config.settingValue content) := by
  cases h with
  | text hallows => exact .text hallows
  | unset hoptional => exact .unset hoptional

/-- What a setting may hold, it takes as it is. -/
theorem Takes.of_holds (h : f.Holds (Config.settingValue content)) :
    f.Takes (Config.settingValue content) content := by
  cases content with
  | none =>
      cases h with
      | unset hoptional => exact .unset hoptional
  | some text =>
      cases h with
      | text hallows =>
          have htakes : f.Takes (.text text) (some (f.normal text)) :=
            .text ((normal_of_allows hallows).symm ▸ hallows)
          rwa [normal_of_allows hallows] at htakes

/-- A setting takes one content for a value. -/
theorem Takes.unique {other : Option String} (h : f.Takes v content) (hother : f.Takes v other) :
    content = other :=
  Except.ok.inj ((accept_eq_ok_iff.mpr h).symm.trans (accept_eq_ok_iff.mpr hother))

/-- What a setting takes is a text unless the setting may be unset. -/
theorem Takes.is_some (h : f.Takes v content) : content.isSome = true ∨ f.isOptional = true := by
  cases h with
  | text => exact .inl rfl
  | unset hoptional => exact .inr hoptional

/-- Every setting is one of all settings. -/
theorem mem_all (f : Field) : f ∈ all := by
  cases f <;> decide

/-- The settings of a section are those that are in it. -/
theorem mem_fields_iff {part : Section} : f ∈ part.fields ↔ f.sectionOf = part := by
  cases f <;> cases part <;> decide

end Field

namespace Config

variable {c d : Config} {f g : Field} {content : Option String}

/-- A setting holds what it is set to. -/
theorem get_set_self (c : Config) (h : content.isSome = true ∨ f.isOptional = true) :
    (c.set f content).get f = content := by
  cases content with
  | some text => cases f <;> rfl
  | none =>
      rcases h with h | h
      · cases h
      · cases f <;> first | rfl | cases h

/-- Setting one leaves the others as they are. -/
theorem get_set_of_ne (h : g ≠ f) (c : Config) (content : Option String) :
    (c.set f content).get g = c.get g := by
  cases f <;> cases g <;> first | rfl | exact absurd rfl h

/-- Settings that are set one after the other hold what they are set to. -/
theorem get_fold_set {contents : Field → Option String}
    (h : ∀ f, (contents f).isSome = true ∨ f.isOptional = true) (fields : List Field) (c : Config)
    (f : Field) : (fields.foldl (fun c g => c.set g (contents g)) c).get f =
      if f ∈ fields then contents f else c.get f := by
  induction fields generalizing c with
  | nil => rfl
  | cons g rest ih =>
      rw [List.foldl_cons, ih]
      by_cases hrest : f ∈ rest
      · rw [if_pos hrest, if_pos (List.mem_cons_of_mem g hrest)]
      · rw [if_neg hrest]
        by_cases hfirst : f = g
        · subst hfirst
          rw [get_set_self c (h f), if_pos List.mem_cons_self]
        · have hnone : f ∉ g :: rest := fun hmem => (List.mem_cons.mp hmem).elim hfirst hrest
          rw [get_set_of_ne hfirst, if_neg hnone]

/-- Only a setting that may be unset holds nothing. -/
theorem get_is_some (c : Config) (f : Field) :
    (c.get f).isSome = true ∨ f.isOptional = true := by
  cases f with
  | outDir | file => exact .inr rfl
  | _ => exact .inl rfl

/-- Configurations with the same settings are the same. -/
theorem eq_of_get (h : ∀ f, c.get f = d.get f) : c = d := by
  obtain ⟨⟨_, _, _, _⟩, ⟨_, _, _⟩, ⟨_, _, _⟩⟩ := c
  obtain ⟨⟨_, _, _, _⟩, ⟨_, _, _⟩, ⟨_, _, _⟩⟩ := d
  have hsuffix := h .suffix
  have hextension := h .extension
  have houtDir := h .outDir
  have hheader := h .header
  have hwrapper := h .deferredWrapper
  have hfallback := h .fallbackName
  have hruntime := h .runtimeModule
  have hlevel := h .level
  have hformat := h .format
  have hfile := h .file
  simp only [get, Option.some.injEq] at *
  subst_vars
  rfl

/-- A configuration in which every setting holds what it may hold. -/
def IsValid (c : Config) : Prop :=
  ∀ f, Field.Holds f (settingValue (c.get f))

/-- The defaults are valid. -/
theorem default_is_valid : IsValid {} := by
  intro f
  cases f with
  | outDir | file => exact .unset rfl
  | _ => exact .text (by decide)

end Config

end TypeSuite
