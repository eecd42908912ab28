import TypeSuite.Config.File
import TypeSuite.Proofs.Config.Sections
import TypeSuite.Yaml.Decode

/-!
# Loading

A configuration that is loaded from a file is valid, and a file that gives none is reported, unless
something is met that no report is made of. `load_documented_iff` says what these things are.
-/

namespace TypeSuite.Config

/-- The faults that are met in loading a file and that no report is made of. -/
inductive Escapes (decode : String → Except DecodeError Value) (store : Store) (given : String) :
    ConfigFault → Prop where
  /-- A directory stands in place of the file. -/
  | directory :
      store.find (.ofString given) = .ok .directory →
      Escapes decode store given (.unreadable ⟨.isDirectory, .ofString given⟩)
  /-- A name in the path is longer than names may be. -/
  | nameTooLong :
      store.find (.ofString given) = .error .nameTooLong →
      Escapes decode store given (.unreadable ⟨.nameTooLong, .ofString given⟩)
  /-- The file is not UTF-8. -/
  | notText {content : ByteArray} :
      store.find (.ofString given) = .ok (.file content) →
      String.fromUTF8? content = none →
      Escapes decode store given .notText
  /-- A scalar in the file has no value. -/
  | noValue {content : ByteArray} {text : String} :
      store.find (.ofString given) = .ok (.file content) →
      String.fromUTF8? content = some text →
      decode text = .error .noValue →
      Escapes decode store given .noValue
  /-- The file holds a mapping with a key that is no text. -/
  | badKey {content : ByteArray} {text : String} {entries : List (Value × Value)}
      {entry : Value × Value} :
      store.find (.ofString given) = .ok (.file content) →
      String.fromUTF8? content = some text →
      decode text = .ok (.map entries) →
      entry ∈ entries → entry.1.text? = none →
      Escapes decode store given .badKey

/-- The outcomes of loading that are documented: a valid configuration, or a fault with a report. -/
inductive Documented : Except ConfigFault Config → Prop where
  | valid {c : Config} : c.IsValid → Documented (.ok c)
  | reported {fault : ConfigFault} {text : String} :
      fault.report? = some text → Documented (.error fault)

variable {decode : String → Except DecodeError Value} {store : Store} {given : String}
  {fault : ConfigFault} {content : ByteArray} {text : String} {v : Value}

/-! ## Reading the file -/

/-- The content of a file is read when there is one under its path. -/
theorem read_file_of_find (h : store.find (.ofString given) = .ok (.file content)) :
    readFile store given = .ok content := by
  simp only [readFile, h]

/-- A file is read, or it is reported, or it is a directory or has a name that is too long. -/
theorem read_file_cases (decode : String → Except DecodeError Value) (store : Store)
    (given : String) :
    (∃ content, store.find (.ofString given) = .ok (.file content)) ∨
      ∃ fault, readFile store given = .error fault ∧
        ((∃ text, fault.report? = some text) ∨ Escapes decode store given fault) := by
  cases hfind : store.find (.ofString given) with
  | ok entry =>
      cases entry with
      | file content => exact .inl ⟨content, rfl⟩
      | directory =>
          refine .inr ⟨_, ?_, .inr (.directory hfind)⟩
          simp only [readFile, hfind]
  | error e =>
      right
      cases e with
      | nameTooLong =>
          refine ⟨_, ?_, .inr (.nameTooLong hfind)⟩
          simp only [readFile, hfind]
      | _ =>
          refine ⟨.notFound given, ?_, .inl ⟨_, rfl⟩⟩
          simp only [readFile, hfind]

/-! ## The value of the file -/

/-- A mapping with a key that is no text gives no configuration. -/
theorem of_value_of_bad_key {entries : List (Value × Value)} {entry : Value × Value}
    (hmem : entry ∈ entries) (hkey : entry.1.text? = none) :
    ofValue given (.map entries) = .error .badKey := by
  have hkeys : ¬ Value.HasTextKeys entries := by
    intro hall
    obtain ⟨key, htext⟩ := hall entry hmem
    rw [htext] at hkey
    cases hkey
  rw [ofValue, of_mapping_of_bad_key hkeys]
  rfl

/-- A value has a documented outcome unless it is a mapping with a key that is no text. -/
theorem of_value_cases (given : String) (v : Value) :
    Documented (ofValue given v) ∨
      ∃ entries entry, v = .map entries ∧ entry ∈ entries ∧ entry.1.text? = none := by
  cases v with
  | null => exact .inl (.valid default_is_valid)
  | map entries =>
      cases hkeys : entries.all fun e => e.1.text?.isSome with
      | true =>
          left
          rw [ofValue, of_mapping_of_texts (Value.all_keys_iff.mp hkeys)]
          cases hread : ofEntries entries with
          | ok c => exact .valid (of_entries_is_valid hread)
          | error mistakes => exact .reported rfl
      | false =>
          obtain ⟨entry, hmem, hkey⟩ := List.all_eq_false.mp hkeys
          exact .inr ⟨entries, entry, rfl, hmem, Option.not_isSome_iff_eq_none.mp hkey⟩
  | _ => exact .inl (.reported rfl)

/-! ## Loading -/

/-- A file that is not read gives no configuration. -/
theorem load_of_fault (h : readFile store given = .error fault) :
    load decode store given = .error fault := by
  unfold load
  rw [h]
  rfl

/-- A file that is not UTF-8 gives no configuration. -/
theorem load_of_bytes (h : store.find (.ofString given) = .ok (.file content))
    (htext : String.fromUTF8? content = none) :
    load decode store given = .error .notText := by
  unfold load
  simp only [read_file_of_find h, bind, Except.bind, htext]
  rfl

/-- A file of a text gives what the value of the text gives. -/
theorem load_of_text (h : store.find (.ofString given) = .ok (.file content))
    (htext : String.fromUTF8? content = some text) :
    load decode store given =
      match decode text with
      | .error .badSyntax => .error .badSyntax
      | .error .noValue => .error .noValue
      | .ok value => ofValue given value := by
  unfold load
  simp only [read_file_of_find h, bind, Except.bind, htext]
  rfl

/-- Loading ends with the fault that escapes, and there is no report of it. -/
theorem Escapes.load (h : Escapes decode store given fault) :
    load decode store given = .error fault ∧ fault.report? = none := by
  cases h with
  | directory hfind =>
      have hfile : readFile store given =
          .error (.unreadable ⟨.isDirectory, .ofString given⟩) := by
        simp only [readFile, hfind]
      exact ⟨load_of_fault hfile, rfl⟩
  | nameTooLong hfind =>
      have hfile : readFile store given =
          .error (.unreadable ⟨.nameTooLong, .ofString given⟩) := by
        simp only [readFile, hfind]
      exact ⟨load_of_fault hfile, rfl⟩
  | notText hfind htext => exact ⟨load_of_bytes hfind htext, rfl⟩
  | noValue hfind htext hdecode =>
      refine ⟨?_, rfl⟩
      rw [load_of_text hfind htext, hdecode]
  | badKey hfind htext hdecode hmem hkey =>
      refine ⟨?_, rfl⟩
      rw [load_of_text hfind htext, hdecode]
      exact of_value_of_bad_key hmem hkey

/-- An outcome that escapes is not documented. -/
theorem Escapes.not_documented (h : Escapes decode store given fault) :
    ¬ Documented (Config.load decode store given) := by
  obtain ⟨hload, hreport⟩ := h.load
  rw [hload]
  intro hdocumented
  cases hdocumented with
  | reported htext =>
      rw [hreport] at htext
      cases htext

/-- Loading has a documented outcome, or it ends with a fault that escapes. -/
theorem load_cases (decode : String → Except DecodeError Value) (store : Store) (given : String) :
    Documented (load decode store given) ∨ ∃ fault, Escapes decode store given fault := by
  rcases read_file_cases decode store given with
    ⟨content, hfind⟩ | ⟨fault, hfile, ⟨text, hreport⟩ | hescapes⟩
  · cases htext : String.fromUTF8? content with
    | none => exact .inr ⟨_, .notText hfind htext⟩
    | some text =>
        rw [load_of_text hfind htext]
        cases hdecode : decode text with
        | error e =>
            cases e with
            | badSyntax => exact .inl (.reported rfl)
            | noValue => exact .inr ⟨_, .noValue hfind htext hdecode⟩
        | ok v =>
            rcases of_value_cases given v with hdocumented | ⟨entries, entry, rfl, hmem, hkey⟩
            · exact .inl hdocumented
            · exact .inr ⟨_, .badKey hfind htext hdecode hmem hkey⟩
  · left
    rw [load_of_fault hfile]
    exact .reported hreport
  · exact .inr ⟨fault, hescapes⟩

/-- Whatever the decoder, the store and the path, loading gives a valid configuration or a fault
with a report exactly if nothing escapes: no directory in place of the file, no name that is too
long, no bytes that are not UTF-8, no scalar without a value and no key that is no text. What
escapes is what loading ends with. -/
theorem load_documented_iff (decode : String → Except DecodeError Value) (store : Store)
    (given : String) :
    (Documented (load decode store given) ↔ ∀ fault, ¬ Escapes decode store given fault) ∧
      ∀ fault, Escapes decode store given fault ↔
        load decode store given = .error fault ∧ fault.report? = none := by
  refine ⟨⟨fun hdocumented fault hescapes => hescapes.not_documented hdocumented, ?_⟩,
    fun fault => ⟨Escapes.load, ?_⟩⟩
  · intro hnone
    rcases load_cases decode store given with hdocumented | ⟨fault, hescapes⟩
    · exact hdocumented
    · exact absurd hescapes (hnone fault)
  · rintro ⟨hload, hreport⟩
    rcases load_cases decode store given with hdocumented | ⟨other, hescapes⟩
    · rw [hload] at hdocumented
      cases hdocumented with
      | reported htext =>
          rw [hreport] at htext
          cases htext
    · have hother := hescapes.load.1
      rw [hload] at hother
      obtain rfl := Except.error.inj hother
      exact hescapes

/-- A directory, a file that is not UTF-8 and a file with a number as a key give neither a
configuration nor a report. -/
theorem load_escapes :
    ¬ Documented (load Yaml.decode ⟨[(["d"], .directory)], []⟩ "d") ∧
    ¬ Documented (load Yaml.decode ⟨[(["c"], .file (.mk #[255]))], []⟩ "c") ∧
    ¬ Documented (load Yaml.decode ⟨[(["c"], .file "1: 2".toUTF8)], []⟩ "c") := by
  obtain ⟨entries, entry, hdecode, hmem, hkey⟩ : ∃ entries entry,
      Yaml.decode "1: 2" = .ok (.map entries) ∧ entry ∈ entries ∧ entry.1.text? = none := by
    have hshape : ((Yaml.decode "1: 2").toOption.bind Value.entries?).any
        (fun entries => entries.any fun e => e.1.text?.isNone) = true := by
      decide +kernel
    cases hdecode : Yaml.decode "1: 2" with
    | error e =>
        rw [hdecode] at hshape
        cases hshape
    | ok v =>
        rw [hdecode] at hshape
        cases v with
        | map entries =>
            obtain ⟨entry, hmem, hkey⟩ := List.any_eq_true.mp hshape
            exact ⟨entries, entry, rfl, hmem, Option.isNone_iff_eq_none.mp hkey⟩
        | _ => cases hshape
  refine ⟨?_, ?_, ?_⟩
  · exact Escapes.not_documented (.directory rfl)
  · exact Escapes.not_documented (.notText rfl rfl)
  · exact Escapes.not_documented (.badKey rfl rfl hdecode hmem hkey)

end TypeSuite.Config
