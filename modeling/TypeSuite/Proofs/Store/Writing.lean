import TypeSuite.Proofs.Step.Run
import TypeSuite.Proofs.Store.Places

/-!
# Writing into a store

Writing a file with the directories above it is a sequence of steps that put entries into the store
or fail. `Meets` says what every such sequence keeps and how it may fail, and
`run_write_with_parents` what it does where the directory is there.
-/

namespace TypeSuite

/-- Bytes that are a text. -/
def IsText (content : ByteArray) : Prop :=
  ∃ text : String, content = text.toUTF8

namespace Store

variable {s : Store}

/-- A property of stores that stays when an entry is put somewhere. -/
def Admits (holds : Store → Prop) (e : Entry) : Prop :=
  ∀ s l, holds s → holds (s.put l e)

/-- A property of stores that stays when a directory is made where nothing is. -/
def AdmitsDirectories (holds : Store → Prop) : Prop :=
  ∀ s l, s.entryAt? l = none → holds s → holds (s.put l .directory)

/-- What stays wherever a directory is put stays when one is made. -/
theorem Admits.directories {holds : Store → Prop} (h : Admits holds .directory) :
    AdmitsDirectories holds :=
  fun s l _ hs => h s l hs

/-- A store whose files are texts. -/
def HoldsText (s : Store) : Prop :=
  ∀ l content, s.entryAt? l = some (.file content) → IsText content

/-- At the place of a new entry is that entry or a directory on the way home. -/
theorem entry_at_put_cases (s : Store) (l : Location) (e : Entry) :
    (s.put l e).entryAt? l = some .directory ∨ (s.put l e).entryAt? l = some e := by
  by_cases h : s.entryAt? l = some .directory
  · rw [entryAt?] at h ⊢
    split
    case isTrue => exact .inl rfl
    case isFalse => exact .inr (by rw [put, List.lookup_cons, beq_self_eq_true])
  · exact .inr (entry_at_put_self h e)

/-- Files stay texts when another text or a directory is put. -/
theorem holds_text_admits {e : Entry} (h : ∀ content, e = .file content → IsText content) :
    Admits HoldsText e := by
  intro s l hs k content hentry
  by_cases hplace : k = l
  · subst hplace
    obtain hdirectory | hnew := entry_at_put_cases s k e
    · rw [hdirectory] at hentry
      cases hentry
    · rw [hnew] at hentry
      exact h content (Option.some.inj hentry)
  · rw [entry_at_put_of_ne hplace] at hentry
    exact hs k content hentry

/-- A file is read from a place in the store. -/
theorem entry_of_read {p : Path} {content : ByteArray} (h : s.read p = .ok content) :
    ∃ l, s.locate p = .ok l ∧ s.entryAt? l = some (.file content) := by
  rw [read, find] at h
  cases hlocate : s.locate p with
  | error fault =>
      rw [hlocate] at h
      cases h
  | ok l =>
      rw [hlocate] at h
      simp only [bind, Except.bind] at h
      refine ⟨l, rfl, ?_⟩
      cases hentry : s.entryAt? l with
      | none =>
          rw [hentry] at h
          cases h
      | some entry =>
          rw [hentry] at h
          cases entry with
          | file found => exact congrArg (some ∘ Entry.file) (Except.ok.inj h)
          | directory => cases h

/-- What is read from a store of texts is a text. -/
theorem HoldsText.read (h : s.HoldsText) {p : Path} {content : ByteArray}
    (hread : s.read p = .ok content) : IsText content := by
  obtain ⟨l, -, hentry⟩ := entry_of_read hread
  exact h l content hentry

/-- A change of a file puts the changed content where its path leads, if there is no directory. -/
theorem alter_of_locate {p : Path} {l : Location} (hlocate : s.locate p = .ok l)
    (hentry : s.entryAt? l ≠ some .directory) (change : ByteArray → ByteArray) :
    ∃ old, s.alter p change = .ok (s.put l (.file (change old))) ∧
      (s.entryAt? l = some (.file old) ∨ old = .empty) := by
  rw [alter, hlocate]
  simp only [bind, Except.bind]
  cases hfound : s.entryAt? l with
  | none => exact ⟨.empty, rfl, .inr rfl⟩
  | some entry =>
      cases entry with
      | directory => exact absurd hfound hentry
      | file old => exact ⟨old, rfl, .inl rfl⟩

/-- A change of a file fails as its path does or because there is a directory, or else it puts the
changed content somewhere. -/
theorem alter_cases (s : Store) (p : Path) (change : ByteArray → ByteArray) :
    (∃ fault, s.alter p change = .error fault ∧ (fault = .nullInName → p.hasNull = true)) ∨
      ∃ l old, s.alter p change = .ok (s.put l (.file (change old))) ∧
        (s.entryAt? l = some (.file old) ∨ old = .empty) := by
  cases hlocate : s.locate p with
  | error fault =>
      refine .inl ⟨fault, by rw [alter, hlocate]; rfl, ?_⟩
      rintro rfl
      exact locate_eq_null_iff.mp hlocate
  | ok l =>
      by_cases hentry : s.entryAt? l = some .directory
      · refine .inl ⟨.isDirectory, ?_, nofun⟩
        rw [alter, hlocate]
        simp only [bind, Except.bind, hentry]
        rfl
      · exact .inr ⟨l, alter_of_locate hlocate hentry change⟩

/-- Files stay texts when a text is added to one of them. -/
theorem HoldsText.append (h : s.HoldsText) {p : Path} {line : String} {t : Store}
    (happend : s.append p line.toUTF8 = .ok t) : t.HoldsText := by
  obtain ⟨fault, herror, -⟩ | ⟨l, old, hput, hold⟩ := alter_cases s p (· ++ line.toUTF8)
  · rw [Store.append, herror] at happend
    cases happend
  · rw [Store.append, hput] at happend
    have htext : IsText old := by
      obtain hfile | rfl := hold
      · exact h l old hfile
      · exact ⟨"", rfl⟩
    obtain ⟨before, rfl⟩ := htext
    obtain rfl := Except.ok.inj happend
    refine holds_text_admits (fun content hcontent => ?_) s l h
    exact ⟨before ++ line, (Entry.file.inj hcontent).symm⟩

end Store

namespace StoreWork

open Step (run_bind_of_error run_bind_of_ok)

variable {α β : Type} {holds : Store → Prop} {fails : FileError → Prop}

/-- Work on a store that keeps a property of the store and fails in certain ways only. -/
def Meets (holds : Store → Prop) (fails : FileError → Prop) (x : StoreWork α) : Prop :=
  ∀ s, holds s → holds (x.run s).2 ∧ ∀ e, (x.run s).1 = .error e → fails e

/-- Looking at the store changes nothing and does not fail. -/
theorem meets_get : Meets holds fails (get : StoreWork Store) :=
  fun _ hs => ⟨hs, nofun⟩

/-- Two pieces of work after each other keep what both keep. -/
theorem meets_bind {x : StoreWork α} {f : α → StoreWork β} (hx : Meets holds fails x)
    (hf : ∀ a, Meets holds fails (f a)) : Meets holds fails (x >>= f) := by
  intro s hs
  obtain ⟨hkept, herrors⟩ := hx s hs
  cases hrun : x.run s with
  | mk outcome t =>
      rw [hrun] at hkept herrors
      cases outcome with
      | error e =>
          rw [run_bind_of_error hrun]
          exact ⟨hkept, fun e' he => herrors e' (congrArg Except.error (Except.error.inj he))⟩
      | ok a =>
          rw [run_bind_of_ok hrun]
          exact hf a t hkept

/-- The run of a change. -/
theorem run_change (path : Path) (f : Store → Except FileFault Store) (s : Store) :
    (change path f).run s = match f s with
      | .ok t => (.ok (), t)
      | .error fault => (.error ⟨fault, path⟩, s) := by
  have hget : (get : StoreWork Store).run s = (.ok s, s) := rfl
  rw [change, run_bind_of_ok hget]
  cases f s <;> rfl

/-- A change keeps what it keeps when it succeeds, and fails as it does. -/
theorem meets_change {path : Path} {f : Store → Except FileFault Store}
    (h : ∀ s, holds s →
      (∃ t, f s = .ok t ∧ holds t) ∨ ∃ fault, f s = .error fault ∧ fails ⟨fault, path⟩) :
    Meets holds fails (change path f) := by
  intro s hs
  rw [run_change]
  obtain ⟨t, hf, ht⟩ | ⟨fault, hf, hfault⟩ := h s hs
  · rw [hf]
    exact ⟨ht, nofun⟩
  · rw [hf]
    exact ⟨hs, fun e he => Except.error.inj he ▸ hfault⟩

/-- A directory is made at a place, or else its path fails or there is something. -/
theorem make_directory_cases (s : Store) (p : Path) :
    (∃ fault, s.makeDirectory p = .error fault ∧ (fault = .nullInName → p.hasNull = true)) ∨
      ∃ l, s.makeDirectory p = .ok (s.put l .directory) ∧ s.entryAt? l = none := by
  rw [Store.makeDirectory]
  cases hlocate : s.locate p with
  | error fault =>
      refine .inl ⟨fault, rfl, ?_⟩
      rintro rfl
      exact Store.locate_eq_null_iff.mp hlocate
  | ok l =>
      simp only [bind, Except.bind]
      cases hentry : s.entryAt? l with
      | none => exact .inr ⟨l, rfl, hentry⟩
      | some entry => exact .inl ⟨.alreadyExists, rfl, nofun⟩

/-- Making a directory unless it is there keeps what admits directories. It fails for a null
character only if there is one in the path. -/
theorem meets_ensure_directory (hdirectory : Store.AdmitsDirectories holds) {path : Path}
    (hpath : ∀ e : FileError, (e.fault = .nullInName → path.hasNull = true) → fails e) :
    Meets holds fails (ensureDirectory path) := by
  refine meets_change fun s hs => ?_
  obtain ⟨fault, hmade, hnull⟩ | ⟨l, hmade, hentry⟩ := make_directory_cases s path
  · rw [hmade]
    cases s.isDirectory path with
    | true => exact .inl ⟨s, rfl, hs⟩
    | false => exact .inr ⟨fault, rfl, hpath _ hnull⟩
  · exact .inl ⟨s.put l .directory, by rw [hmade], hdirectory s l hentry hs⟩

/-- Making a directory with all directories above it keeps what admits directories. -/
theorem meets_make_all (hdirectory : Store.AdmitsDirectories holds) {root : String}
    {names : List String}
    (hpath : ∀ e : FileError,
      (e.fault = .nullInName → (⟨root, names.reverse⟩ : Path).hasNull = true) → fails e) :
    Meets holds fails (makeAll root names) := by
  induction names with
  | nil => exact meets_ensure_directory hdirectory hpath
  | cons name above ih =>
      have hlast : Meets holds fails (ensureDirectory ⟨root, (name :: above).reverse⟩) :=
        meets_ensure_directory hdirectory hpath
      have habove : Meets holds fails (makeAll root above) := by
        refine ih fun e he => hpath e fun hfault => ?_
        have hnull := he hfault
        rw [Path.hasNull] at hnull ⊢
        rw [List.reverse_cons, List.any_append, hnull, Bool.true_or]
      rw [makeAll]
      refine meets_bind meets_get fun s => ?_
      split
      case h_1 => exact meets_bind habove fun _ => hlast
      case h_2 => exact hlast

/-- Writing a file with the directories above it keeps what admits directories and the file. It
fails for a null character only if there is one in the path. -/
theorem meets_write_with_parents {content : ByteArray}
    (hdirectory : Store.AdmitsDirectories holds) (hfile : Store.Admits holds (.file content))
    {path : Path}
    (hpath : ∀ e : FileError, (e.fault = .nullInName → path.hasNull = true) → fails e) :
    Meets holds fails (writeWithParents path content) := by
  have hparent : Meets holds fails (makeDirectories path.parent) := by
    refine meets_make_all hdirectory fun e he => hpath e fun hfault => ?_
    have hnull := he hfault
    rw [List.reverse_reverse] at hnull
    exact Path.hasNull_of_parent hnull
  refine meets_bind hparent fun _ => meets_change fun s hs => ?_
  obtain ⟨fault, herror, hnull⟩ | ⟨l, old, hput, -⟩ := Store.alter_cases s path fun _ => content
  · exact .inr ⟨fault, herror, hpath _ hnull⟩
  · exact .inl ⟨_, hput, hfile s l hs⟩

/-! ## Where the directory is there -/

/-- Making a directory that is there changes nothing. -/
theorem run_ensure_directory {s : Store} {path : Path} {k : Location}
    (hlocate : s.locate path = .ok k) (hentry : s.entryAt? k = some .directory) :
    (ensureDirectory path).run s = (.ok (), s) := by
  have hmade : s.makeDirectory path = .error .alreadyExists := by
    rw [Store.makeDirectory, hlocate]
    simp only [bind, Except.bind, hentry]
    rfl
  have hthere : s.isDirectory path = true := by
    rw [Store.isDirectory, Store.find, hlocate]
    simp only [bind, Except.bind, hentry]
    rfl
  rw [ensureDirectory, run_change]
  simp only [hmade, if_pos hthere]

/-- Making a directory that is there with all directories above it changes nothing. -/
theorem run_make_directories {s : Store} {path : Path} {k : Location}
    (hlocate : s.locate path = .ok k) (hentry : s.entryAt? k = some .directory) :
    (makeDirectories path).run s = (.ok (), s) := by
  have hget : (get : StoreWork Store).run s = (.ok s, s) := rfl
  obtain ⟨root, parts⟩ := path
  rw [makeDirectories]
  cases hparts : parts.reverse with
  | nil =>
      obtain rfl := List.reverse_eq_nil_iff.mp hparts
      exact run_ensure_directory hlocate hentry
  | cons name above =>
      obtain rfl : parts = (name :: above).reverse := by rw [← hparts, List.reverse_reverse]
      have hmade : s.makeDirectory ⟨root, (name :: above).reverse⟩ = .error .alreadyExists := by
        rw [Store.makeDirectory, hlocate]
        simp only [bind, Except.bind, hentry]
        rfl
      rw [makeAll, run_bind_of_ok hget]
      simp only [hmade]
      exact run_ensure_directory hlocate hentry

/-- Writing a file at a place that is no directory, with all directories above it there, puts the
file and changes nothing else. -/
theorem run_write_with_parents {s : Store} {path : Path} {l : Location}
    (hlocate : s.locate path = .ok l) (hentry : s.entryAt? l ≠ some .directory)
    (content : ByteArray) :
    (writeWithParents path content).run s = (.ok (), s.put l (.file content)) := by
  obtain ⟨k, hparent, hk⟩ := Store.locate_parent hlocate
  obtain ⟨old, hwrite, -⟩ := Store.alter_of_locate hlocate hentry fun _ => content
  rw [writeWithParents, run_bind_of_ok (run_make_directories hparent hk), run_change, Store.write,
    hwrite]

end StoreWork

end TypeSuite
