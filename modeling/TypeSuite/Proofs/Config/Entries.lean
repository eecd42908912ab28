import TypeSuite.Config.Value

/-!
# Entries of mappings

The entry that is found under a key, after an entry is put under a key and after the entries of one
mapping are laid over those of another. `find_overlay_entries` says that what is laid over counts
before what lies below, and that mappings on both sides are merged.
-/

namespace TypeSuite.Value

variable {entries overrides : List (Value × Value)} {key other : String} {k v : Value}

/-! ## Looking up a key -/

/-- A key is found where it is the text. -/
theorem is_text_iff : k.isText key = true ↔ k = .text key := by
  cases k <;> simp [isText]

/-- An entry of the key is found before the entries behind it. -/
theorem find_cons_self (key : String) (v : Value) (entries : List (Value × Value)) :
    find? ((.text key, v) :: entries) key = some v := by
  simp [find?, isText]

/-- An entry of another key is passed over. -/
theorem find_cons_of_ne (h : k ≠ .text key) (v : Value) (entries : List (Value × Value)) :
    find? ((k, v) :: entries) key = find? entries key := by
  have hother : k.isText key ≠ true := fun htext => h (is_text_iff.mp htext)
  simp [find?, hother]

/-- What is found under a key is in an entry of the key. -/
theorem mem_of_find (h : find? entries key = some v) : (.text key, v) ∈ entries := by
  obtain ⟨e, hfound, rfl⟩ := Option.map_eq_some_iff.mp h
  have htext := List.find?_some hfound
  have hkey : e.1 = .text key := is_text_iff.mp htext
  exact hkey ▸ List.mem_of_find?_eq_some hfound

/-- Nothing is found under a key exactly if no entry has it. -/
theorem find_eq_none_iff : find? entries key = none ↔ ∀ v, (.text key, v) ∉ entries := by
  constructor
  · intro h v hmem
    rw [find?, Option.map_eq_none_iff, List.find?_eq_none] at h
    exact h _ hmem (is_text_iff.mpr rfl)
  · intro h
    cases hfound : find? entries key with
    | none => rfl
    | some v => exact absurd (mem_of_find hfound) (h v)

/-! ## Putting an entry -/

/-- Under the key of an entry that is put, its value is found. -/
theorem find_put_self (key : String) (v : Value) (entries : List (Value × Value)) :
    find? (put key v entries) key = some v := by
  induction entries with
  | nil => exact find_cons_self ..
  | cons e rest ih =>
      obtain ⟨k, old⟩ := e
      rw [put]
      by_cases h : k.isText key = true
      · obtain rfl := is_text_iff.mp h
        rw [if_pos h, find_cons_self]
      · rw [if_neg h, find_cons_of_ne (fun hkey => h (is_text_iff.mpr hkey)), ih]

/-- Under another key, putting an entry changes nothing. -/
theorem find_put_of_ne (h : other ≠ key) (v : Value) (entries : List (Value × Value)) :
    find? (put key v entries) other = find? entries other := by
  have hne : Value.text key ≠ .text other := fun heq => h (Value.text.inj heq).symm
  induction entries with
  | nil => exact find_cons_of_ne hne ..
  | cons e rest ih =>
      obtain ⟨k, old⟩ := e
      rw [put]
      by_cases hkey : k.isText key = true
      · obtain rfl := is_text_iff.mp hkey
        rw [if_pos hkey, find_cons_of_ne hne, find_cons_of_ne hne]
      · rw [if_neg hkey]
        by_cases hother : k = .text other
        · subst hother
          rw [find_cons_self, find_cons_self]
        · rw [find_cons_of_ne hother, find_cons_of_ne hother, ih]

/-- An entry at the end whose key is no text is not found. -/
theorem find_concat_of_no_text (h : k.text? = none) (v : Value) (entries : List (Value × Value))
    (key : String) : find? (entries ++ [(k, v)]) key = find? entries key := by
  have hne : k.isText key ≠ true := by
    intro htext
    obtain rfl := is_text_iff.mp htext
    cases h
  simp [find?, List.find?_append, hne]

/-! ## Laying entries over others -/

/-- Entries no two of which have one text as their key. -/
def DistinctKeys (entries : List (Value × Value)) : Prop :=
  (entries.filterMap (·.1.text?)).Nodup

/-- Entries whose keys are all texts. -/
def HasTextKeys (entries : List (Value × Value)) : Prop :=
  ∀ e ∈ entries, ∃ key, e.1 = .text key

/-- A value laid over what is there, if anything is. -/
def atop (v : Value) : Option Value → Value
  | some old => overlay v old
  | none => v

/-- The key of the first of distinct entries is not found behind it. -/
theorem DistinctKeys.find_rest (h : DistinctKeys ((.text key, v) :: entries)) :
    find? entries key = none := by
  rw [find_eq_none_iff]
  intro w hmem
  exact (List.nodup_cons.mp h).1 (List.mem_filterMap.mpr ⟨_, hmem, rfl⟩)

/-- Behind the first of distinct entries, the entries are distinct. -/
theorem DistinctKeys.rest (h : DistinctKeys ((k, v) :: entries)) : DistinctKeys entries :=
  h.sublist ((List.sublist_cons_self _ _).filterMap _)

/-- An entry whose key is no text is laid over others behind all of them. -/
theorem overlay_entries_of_no_text (h : k.text? = none) (base : List (Value × Value)) :
    overlayEntries ((k, v) :: overrides) base = overlayEntries overrides (base ++ [(k, v)]) := by
  cases k with
  | text key => cases h
  | _ => rfl

/-- An entry whose key is a text is laid over the one that is found under it. -/
theorem overlay_entries_of_text (base : List (Value × Value)) :
    overlayEntries ((.text key, v) :: overrides) base =
      overlayEntries overrides (put key (v.atop (find? base key)) base) := by
  rw [overlayEntries]
  cases find? base key <;> rfl

/-- Under a key, the entry that is laid over others is found, merged with the one below it. -/
theorem find_overlay_entries (h : DistinctKeys overrides) (base : List (Value × Value))
    (key : String) :
    find? (overlayEntries overrides base) key =
      ((find? overrides key).map (·.atop (find? base key))).or (find? base key) := by
  induction overrides generalizing base with
  | nil => rfl
  | cons e rest ih =>
      obtain ⟨k, v⟩ := e
      -- The first entry changes what lies below, so the base is that of the induction hypothesis.
      cases hk : k.text? with
      | none =>
          have hne : k ≠ .text key := by
            rintro rfl
            cases hk
          rw [overlay_entries_of_no_text hk, ih h.rest, find_concat_of_no_text hk,
            find_cons_of_ne hne]
      | some first =>
          obtain rfl : k = .text first := by
            cases k <;> cases hk
            rfl
          rw [overlay_entries_of_text, ih h.rest]
          by_cases hkey : first = key
          · -- No entry behind it has its key, so it is found as it was merged.
            subst hkey
            rw [h.find_rest, find_cons_self]
            exact find_put_self ..
          · rw [find_cons_of_ne fun heq => hkey (Value.text.inj heq),
              find_put_of_ne fun heq => hkey heq.symm]

/-- An entry that is laid over others is found merged with the one below it. -/
theorem find_overlay_of_some (h : DistinctKeys overrides) (hfound : find? overrides key = some v)
    (base : List (Value × Value)) :
    find? (overlayEntries overrides base) key = some (v.atop (find? base key)) := by
  rw [find_overlay_entries h, hfound]
  rfl

/-- An entry that nothing is laid over is found as it is. -/
theorem find_overlay_of_none (h : DistinctKeys overrides) (hfound : find? overrides key = none)
    (base : List (Value × Value)) :
    find? (overlayEntries overrides base) key = find? base key := by
  rw [find_overlay_entries h, hfound]
  rfl

/-! ## Keys that are texts -/

/-- A value is a text if it has one. -/
theorem is_some_text_iff : k.text?.isSome = true ↔ ∃ key, k = .text key := by
  cases k <;> simp [text?]

/-- All keys are texts exactly if all of them have one. -/
theorem all_keys_iff : (entries.all fun e => e.1.text?.isSome) = true ↔ HasTextKeys entries := by
  rw [List.all_eq_true]
  exact forall₂_congr fun e _ => is_some_text_iff

/-- No entries have a key that is no text. -/
theorem has_text_keys_nil : HasTextKeys [] :=
  nofun

/-- The keys of entries are texts exactly if the first one is and those behind it are. -/
theorem has_text_keys_cons {e : Value × Value} :
    HasTextKeys (e :: entries) ↔ (∃ key, e.1 = .text key) ∧ HasTextKeys entries :=
  List.forall_mem_cons

/-- An entry under a text leaves the other keys as they are. -/
theorem has_text_keys_put : HasTextKeys (put key v entries) ↔ HasTextKeys entries := by
  induction entries with
  | nil => simp [put, HasTextKeys]
  | cons e rest ih =>
      rw [put]
      split
      case isTrue => rw [has_text_keys_cons, has_text_keys_cons]
      case isFalse => rw [has_text_keys_cons, has_text_keys_cons, ih]

/-- All keys of what is laid over entries and of these are texts exactly if those of each are. -/
theorem has_text_keys_overlay (base : List (Value × Value)) :
    HasTextKeys (overlayEntries overrides base) ↔ HasTextKeys overrides ∧ HasTextKeys base := by
  induction overrides generalizing base with
  | nil => exact (and_iff_right has_text_keys_nil).symm
  | cons e rest ih =>
      obtain ⟨k, v⟩ := e
      cases hk : k.text? with
      | none =>
          have hno : ¬ ∃ key, k = .text key := by
            rw [← is_some_text_iff, hk]
            exact Bool.false_ne_true
          rw [overlay_entries_of_no_text hk, ih]
          refine iff_of_false (fun h => ?_) fun h => ?_
          · exact hno (h.2 (k, v) (List.mem_append_right _ (List.mem_singleton_self _)))
          · exact hno (h.1 (k, v) List.mem_cons_self)
      | some key =>
          obtain ⟨key, rfl⟩ : ∃ key, k = .text key := is_some_text_iff.mp (hk ▸ rfl)
          have hkey : ∃ other, Value.text key = .text other := ⟨key, rfl⟩
          rw [overlay_entries_of_text, ih, has_text_keys_put, has_text_keys_cons,
            and_iff_right hkey]

end TypeSuite.Value
