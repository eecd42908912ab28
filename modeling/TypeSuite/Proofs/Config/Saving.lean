import Mathlib.Control.Monad.Basic
import TypeSuite.Proofs.Config.Loading
import TypeSuite.Proofs.Store.Changes
import TypeSuite.Yaml.Writer

/-!
# Saving

A configuration is saved as sections of texts, in which the settings that are unset are left out.
Both what is saved and the value of a configuration are `entriesGiving` some values to the settings,
and `of_entries_giving_iff` says which configuration is read from such entries. `load_saved` says
that a file gives the configuration back that was saved to it.
-/

namespace TypeSuite

/-- The value of sections with texts under their keys. -/
def Value.ofSections (sections : List (String × List (String × String))) : Value :=
  .map (sections.map fun s => (.text s.1, .map (s.2.map fun e => (.text e.1, .text e.2))))

/-- Bytes that were made of a text are read as it. -/
theorem Text.from_to_utf8 (text : String) : String.fromUTF8? text.toUTF8 = some text :=
  dif_pos text.isValidUTF8

/-- The tokens of a text that is made of characters are read from them. -/
theorem Yaml.tokens_of_list (cs : List Char) :
    tokens? (String.ofList cs) =
      if cs.all isAllowed then
        (TokenStream.run (cs.length + 2) ⟨⟨cs, 0, 0, 0⟩, #[], 0, [], true, []⟩).map
          (·.tokens.toList)
      else none := by
  rw [tokens?, TokenStream.start, Cursor.start, ← String.length_toList, String.toList_ofList]

/-- A file that is written with the directories above it is found where its path leads. -/
theorem StoreWork.find_written {p : Path} {content : ByteArray} {s t : Store}
    (h : (writeWithParents p content).run s = (.ok (), t)) : t.find p = .ok (.file content) := by
  obtain ⟨e, u, hrun, -⟩ | ⟨l, u, hrun, -, hlocate, hentry⟩ := write_with_parents_cases p content s
  · rw [h] at hrun
    cases hrun
  · rw [h] at hrun
    obtain rfl : t = u := (Prod.mk.inj hrun).2
    rw [Store.find, hlocate]
    simp only [bind, Except.bind, hentry]
    rfl

namespace Field

variable {f g : Field} {given : Option Value} {before after : Option String}

/-- Settings have different names. -/
theorem eq_of_name (hname : f.name = g.name) : f = g := by
  revert hname
  cases f <;> cases g <;> decide

/-- What a setting reads, it takes. -/
theorem Reads.suits (h : f.Reads given before after) : f.Suits given := by
  rintro v rfl
  exact ⟨after, h⟩

end Field

namespace Config

/-! ## Entries that give values to settings -/

/-- The entries of some settings, of which each is given a value or left out. -/
def entriesOf (value : Field → Option Value) (fields : List Field) : List (Value × Value) :=
  fields.filterMap fun f => (value f).map (.text f.name, ·)

/-- The entries that give each setting a value or leave it out, section by section. -/
def entriesGiving (value : Field → Option Value) : List (Value × Value) :=
  Section.all.map fun part => (.text part.name, .map (entriesOf value part.fields))

variable {value : Field → Option Value} {c : Config} {given : List (Value × Value)}

/-- A setting is found with the value that it is given if it is listed. -/
theorem find_entries_of (value : Field → Option Value) (fields : List Field) (f : Field) :
    Value.find? (entriesOf value fields) f.name = if f ∈ fields then value f else none := by
  induction fields with
  | nil => rfl
  | cons g rest ih =>
      rw [entriesOf] at ih ⊢
      by_cases hname : g = f
      · subst hname
        rw [if_pos List.mem_cons_self]
        cases hvalue : value g with
        | none =>
            -- It is given nothing, so it is not found where it is listed again either.
            rw [List.filterMap_cons_none (by rw [hvalue]; rfl), ih, hvalue, ite_self]
        | some v =>
            rw [List.filterMap_cons_some (by rw [hvalue]; rfl), Value.find_cons_self]
      · have hmem : f ∈ g :: rest ↔ f ∈ rest := by
          rw [List.mem_cons, or_iff_right fun heq => hname heq.symm]
        have hkey : Value.text g.name ≠ .text f.name := fun heq =>
          hname (Field.eq_of_name (Value.text.inj heq))
        simp only [hmem, ← ih]
        cases hvalue : value g with
        | none => rw [List.filterMap_cons_none (by rw [hvalue]; rfl)]
        | some v => rw [List.filterMap_cons_some (by rw [hvalue]; rfl), Value.find_cons_of_ne hkey]

/-- A section is found with the values that its settings are given. -/
theorem find_entries_giving (value : Field → Option Value) (part : Section) :
    Value.find? (entriesGiving value) part.name = some (.map (entriesOf value part.fields)) := by
  cases part <;> rfl

/-- A setting is given its value. -/
theorem given_entries_giving (value : Field → Option Value) (f : Field) :
    given? (entriesGiving value) f = value f := by
  rw [given_of_find (find_entries_giving value f.sectionOf), find_entries_of,
    if_pos (Field.mem_fields_iff.mpr rfl)]

/-- A configuration is read from entries that give values to its settings exactly if each setting
holds what it takes from its value, or its default when it is given none. -/
theorem of_entries_giving_iff :
    ofEntries (entriesGiving value) = .ok c ↔
      ∀ f : Field, f.Reads (value f) (Config.get {} f) (c.get f) := by
  simp only [of_entries_iff, given_entries_giving]
  refine ⟨And.right, fun h => ⟨⟨?_, fun f => ?_⟩, h⟩⟩
  · intro key v hfound
    obtain ⟨part, -, hentry⟩ := List.mem_map.mp (Value.mem_of_find hfound)
    obtain ⟨hkey, hv⟩ := Prod.mk.inj hentry
    exact ⟨part, _, Value.text.inj hkey, hv.symm⟩
  · rw [given_entries_giving]
    exact (h f).suits

/-! ## What is saved -/

/-- What is saved gives each setting its text and leaves out the ones that are unset. -/
theorem of_sections_set_entries (c : Config) :
    Value.ofSections c.setEntries = .map (entriesGiving fun f => (c.get f).map .text) := by
  rw [Value.ofSections, setEntries, List.map_map]
  refine congrArg Value.map (List.map_congr_left fun part _ => ?_)
  simp [entriesOf, sectionEntries, List.filterMap_map, List.map_filterMap, Function.comp_def]

/-- The value of a configuration gives each setting its text, or null when it is unset. -/
theorem to_value_eq (c : Config) :
    c.toValue = .map (entriesGiving fun f => some (settingValue (c.get f))) := by
  rw [toValue, partEntries]
  refine congrArg Value.map (List.map_congr_left fun part _ => ?_)
  simp [entriesOf, fieldEntries, sectionEntries, Function.comp_def]

/-- A setting that is unset is unset by default. -/
theorem default_of_unset {f : Field} (h : c.get f = none) : Config.get {} f = none := by
  cases f with
  | outDir | file => rfl
  | _ => cases h

/-- A valid configuration is read from what is saved of it. -/
theorem IsValid.of_saved (h : c.IsValid) :
    ofEntries (entriesGiving fun f => (c.get f).map .text) = .ok c := by
  rw [of_entries_giving_iff]
  intro f
  have hholds := h f
  cases hget : c.get f with
  | none => exact (default_of_unset hget).symm
  | some text =>
      rw [hget] at hholds
      exact Field.Takes.of_holds hholds

/-- A valid configuration is read from its value. -/
theorem IsValid.of_to_value (h : c.IsValid) :
    ofEntries (entriesGiving fun f => some (settingValue (c.get f))) = .ok c :=
  of_entries_giving_iff.mpr fun f => Field.Takes.of_holds (h f)

variable {encode : List (String × List (String × String)) → String}
  {decode : String → Except DecodeError Value} {path : String} {s t : Store}

/-- A valid configuration is loaded from the file that it was saved to. -/
theorem IsValid.load_of_save (h : c.IsValid)
    (hdecode : decode (encode c.setEntries) = .ok (.ofSections c.setEntries))
    (hsave : (save encode c path).run s = (.ok (), t)) : load decode t path = .ok c := by
  have hfind : t.find (.ofString path) = .ok (.file (encode c.setEntries).toUTF8) :=
    StoreWork.find_written hsave
  have hkeys : Value.HasTextKeys (entriesGiving fun f => (c.get f).map .text) := by
    simp [entriesGiving, Value.HasTextKeys]
  rw [load_of_text hfind (Text.from_to_utf8 _), hdecode, of_sections_set_entries]
  show ofValue path (.map _) = _
  rw [ofValue, of_mapping_of_texts hkeys, h.of_saved]
  rfl

/-- Saving a valid configuration puts no file, or the configuration is loaded from the file again.
No file is put only when the path leads to a directory, or nowhere yet. -/
theorem IsValid.save_cases (h : c.IsValid)
    (hdecode : decode (encode c.setEntries) = .ok (.ofSections c.setEntries)) (path : String)
    (s : Store) :
    (∃ e t, (save encode c path).run s = (.error e, t) ∧ s.Changes (fun _ => False) t ∧
      ∀ l, s.locate (.ofString path) = .ok l → s.entryAt? l = some .directory) ∨
    ∃ t, (save encode c path).run s = (.ok (), t) ∧ load decode t path = .ok c := by
  obtain ⟨e, t, hrun, hchanges⟩ | ⟨l, t, hrun, -⟩ :=
    StoreWork.write_with_parents_cases (.ofString path) (encode c.setEntries).toUTF8 s
  · refine .inl ⟨e, t, hrun, hchanges, fun l hlocate => ?_⟩
    by_contra hentry
    rw [StoreWork.run_write_with_parents hlocate hentry] at hrun
    cases hrun
  · exact .inr ⟨t, hrun, h.load_of_save hdecode hrun⟩

/-- Let a text be decoded to the sections of a configuration that it was encoded from. Then the
configuration is loaded from any file that it is saved to, and it is saved wherever the path leads
to a place that is no directory. It is read from its own value as well, in which what is unset is
null. What a setting takes it takes again as it is, and the settings that are left out of the file
are the ones that are unset. -/
theorem load_saved (hc : ofEntries given = .ok c)
    (hdecode : decode (encode c.setEntries) = .ok (.ofSections c.setEntries)) :
    (∀ path s,
      (∃ e t, (save encode c path).run s = (.error e, t) ∧ s.Changes (fun _ => False) t ∧
        ∀ l, s.locate (.ofString path) = .ok l → s.entryAt? l = some .directory) ∨
      ∃ t, (save encode c path).run s = (.ok (), t) ∧ load decode t path = .ok c) ∧
    (∃ entries, c.toValue = .map entries ∧ ofEntries entries = .ok c) ∧
    (∀ (f : Field) v content, f.accept v = .ok content →
      f.accept (settingValue content) = .ok content) ∧
    ∃ saved, Value.ofSections c.setEntries = .map saved ∧
      ∀ f, given? saved f = (c.get f).map .text := by
  have hvalid := of_entries_is_valid hc
  refine ⟨hvalid.save_cases hdecode, ⟨_, to_value_eq c, hvalid.of_to_value⟩, fun f v _ h => ?_,
    _, of_sections_set_entries c, given_entries_giving _⟩
  have htakes := Field.accept_eq_ok_iff.mp h
  exact Field.accept_eq_ok_iff.mpr (.of_holds htakes.holds)

/-- A configuration with a header and a directory that are quoted in the file, and without a file
for the log, is loaded from the new file that it was saved to. -/
theorem load_saved_quoted :
    ∃ c t, ofEntries [(.text "output", .map [(.text "header", .text "# é\n"),
          (.text "out_dir", .text "yes")])] = .ok c ∧
      c.output.outDir = some "yes" ∧ c.logging.file = none ∧
      (save Yaml.encode c "nested/config.yaml").run .empty = (.ok (), t) ∧
      load Yaml.decode t "nested/config.yaml" = .ok c := by
  obtain ⟨c, hc, hdecode, hdirectory, hfile⟩ : ∃ c : Config,
      ofEntries [(.text "output", .map [(.text "header", .text "# é\n"),
        (.text "out_dir", .text "yes")])] = .ok c ∧
      Yaml.decode (Yaml.encode c.setEntries) = .ok (.ofSections c.setEntries) ∧
      c.output.outDir = some "yes" ∧ c.logging.file = none := by
    refine ⟨{ output := { header := "# é\n", outDir := some "yes" } }, rfl, ?_, rfl, rfl⟩
    -- The characters are read as they were written, before they become a text.
    rw [Yaml.encode, Yaml.Page.text, Yaml.decode, Yaml.root?, Yaml.tokens_of_list]
    decide +kernel
  have hwritten (content : ByteArray) :
      ((StoreWork.writeWithParents (.ofString "nested/config.yaml") content).run .empty).1 =
        .ok () := rfl
  obtain ⟨e, t, hrun, -⟩ | ⟨t, hrun, hload⟩ :=
    (load_saved hc hdecode).1 "nested/config.yaml" .empty
  · have hfails := hwritten (Yaml.encode c.setEntries).toUTF8
    rw [← save, hrun] at hfails
    cases hfails
  · exact ⟨c, t, hc, hdirectory, hfile, hrun, hload⟩

end Config

end TypeSuite
