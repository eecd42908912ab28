import TypeSuite.Proofs.Store.Writing

/-!
# Changes of a store

A store is changed by files that are put and directories that are made, and nothing is taken away.
`Changes` says at which places files may have been put. A path that leads somewhere leads there
ever after, and a file at another place can be read as before.
-/

namespace TypeSuite

namespace Store

/-- A later state of a store: files were put at certain places only, and directories were made
where nothing was. -/
structure Changes (s : Store) (places : Location → Prop) (t : Store) : Prop where
  home : t.home = s.home
  directories : ∀ l, s.entryAt? l = some .directory → t.entryAt? l = some .directory
  kept : ∀ l, ¬ places l → t.entryAt? l = s.entryAt? l ∨
    (s.entryAt? l = none ∧ t.entryAt? l = some .directory)

variable {s t u : Store} {places others : Location → Prop} {l : Location} {p : Path}
  {content : ByteArray}

/-- A store is a later state of itself. -/
theorem changes_refl (s : Store) (places : Location → Prop) : s.Changes places s :=
  ⟨rfl, fun _ h => h, fun _ _ => .inl rfl⟩

/-- Changes follow each other. -/
theorem Changes.trans (h : s.Changes places t) (hnext : t.Changes places u) :
    s.Changes places u where
  home := hnext.home.trans h.home
  directories := fun l hl => hnext.directories l (h.directories l hl)
  kept := by
    intro l hl
    rcases h.kept l hl with hsame | ⟨hnone, hmade⟩
    · rw [← hsame]
      exact hnext.kept l hl
    · exact .inr ⟨hnone, hnext.directories l hmade⟩

/-- Changes at some places are changes at more places. -/
theorem Changes.mono (h : s.Changes places t) (hsub : ∀ l, places l → others l) :
    s.Changes others t :=
  ⟨h.home, h.directories, fun l hl => h.kept l fun hplace => hl (hsub l hplace)⟩

/-- A file is put where no directory is. -/
theorem changes_put_file (h : s.entryAt? l ≠ some .directory) (content : ByteArray) :
    s.Changes (· = l) (s.put l (.file content)) where
  home := rfl
  directories := by
    intro k hk
    have hne : k ≠ l := by
      rintro rfl
      exact h hk
    rwa [entry_at_put_of_ne hne]
  kept := fun k hk => .inl (entry_at_put_of_ne hk _)

/-- A directory is made where nothing is. -/
theorem changes_put_directory (h : s.entryAt? l = none) (places : Location → Prop) :
    s.Changes places (s.put l .directory) := by
  have hself : (s.put l .directory).entryAt? l = some .directory :=
    entry_at_put_self (by simp [h]) _
  refine ⟨rfl, fun k hk => ?_, fun k _ => ?_⟩
  · by_cases hkl : k = l
    · rw [hkl, hself]
    · rwa [entry_at_put_of_ne hkl]
  · by_cases hkl : k = l
    · subst hkl
      exact .inr ⟨h, hself⟩
    · exact .inl (entry_at_put_of_ne hkl _)

/-- Directories may be made wherever nothing is. -/
theorem changes_admit_directories (s : Store) (places : Location → Prop) :
    AdmitsDirectories (s.Changes places) :=
  fun _ _ hnone h => h.trans (changes_put_directory hnone places)

/-- Names that lead somewhere lead there ever after. -/
theorem Changes.walk (h : s.Changes places t) {names : List String} {m : Location}
    (hwalk : s.walk l names = .ok m) : t.walk l names = .ok m := by
  induction names generalizing l with
  | nil => exact hwalk
  | cons name rest ih =>
      obtain ⟨hsize, ⟨rfl, rfl⟩ | ⟨-, hentry, hrest⟩⟩ := walk_cons_cases hwalk
      · rw [Store.walk, if_neg (Nat.not_lt.mpr hsize)]
        rfl
      · exact (walk_cons_of_directory hsize (h.directories _ hentry)).trans (ih hrest)

/-- A path that leads somewhere leads there ever after. -/
theorem Changes.locate (h : s.Changes places t) (hlocate : s.locate p = .ok l) :
    t.locate p = .ok l := by
  rw [locate_eq] at hlocate ⊢
  split at hlocate
  case isTrue => cases hlocate
  case isFalse hnull =>
    rw [if_neg hnull, h.home]
    exact h.walk hlocate

/-- A file at another place stays as it is. -/
theorem Changes.file (h : s.Changes places t) (hl : ¬ places l)
    (hentry : s.entryAt? l = some (.file content)) : t.entryAt? l = some (.file content) := by
  rcases h.kept l hl with hsame | ⟨hnone, -⟩
  · rw [hsame, hentry]
  · rw [hnone] at hentry
    cases hentry

/-- A file is read where its path leads. -/
theorem read_of_entry (hlocate : s.locate p = .ok l)
    (hentry : s.entryAt? l = some (.file content)) : s.read p = .ok content := by
  rw [read, find, hlocate]
  simp only [bind, Except.bind, hentry]
  rfl

/-- What is read at a path that leads to another place is read there ever after. -/
theorem Changes.read (h : s.Changes places t) (hread : s.read p = .ok content)
    (hplace : ∀ l, s.locate p = .ok l → ¬ places l) : t.read p = .ok content := by
  obtain ⟨l, hlocate, hentry⟩ := entry_of_read hread
  exact read_of_entry (h.locate hlocate) (h.file (hplace l hlocate) hentry)

/-- A file is changed where its path leads, and there is no directory. -/
theorem alter_ok {change : ByteArray → ByteArray} (h : s.alter p change = .ok t) :
    ∃ l old, s.locate p = .ok l ∧ s.entryAt? l ≠ some .directory ∧
      t = s.put l (.file (change old)) := by
  cases hlocate : s.locate p with
  | error fault =>
      rw [alter, hlocate] at h
      cases h
  | ok l =>
      by_cases hentry : s.entryAt? l = some .directory
      · rw [alter, hlocate] at h
        simp only [bind, Except.bind, hentry] at h
        cases h
      · obtain ⟨old, halter, -⟩ := alter_of_locate hlocate hentry change
        rw [halter] at h
        exact ⟨l, old, rfl, hentry, (Except.ok.inj h).symm⟩

end Store

namespace StoreWork

open Step (run_bind_of_error run_bind_of_ok)

/-- Making a directory with all directories above it puts no file. -/
theorem make_directories_changes (p : Path) (s : Store) :
    s.Changes (fun _ => False) ((makeDirectories p).run s).2 := by
  have hmeets : Meets (s.Changes fun _ => False) (fun _ => True) (makeDirectories p) :=
    meets_make_all (Store.changes_admit_directories s _) fun _ _ => trivial
  exact (hmeets s (Store.changes_refl s _)).1

/-- Writing a file with all directories above it fails and puts no file, or the file is where its
path leads and nothing else is put. -/
theorem write_with_parents_cases (p : Path) (content : ByteArray) (s : Store) :
    (∃ e t, (writeWithParents p content).run s = (.error e, t) ∧ s.Changes (fun _ => False) t) ∨
      ∃ l t, (writeWithParents p content).run s = (.ok (), t) ∧ s.Changes (· = l) t ∧
        t.locate p = .ok l ∧ t.entryAt? l = some (.file content) := by
  have hmade := make_directories_changes p.parent s
  cases hrun : (makeDirectories p.parent).run s with
  | mk outcome t =>
      rw [hrun] at hmade
      rw [writeWithParents]
      cases outcome with
      | error e => exact .inl ⟨e, t, run_bind_of_error hrun, hmade⟩
      | ok _ =>
          rw [run_bind_of_ok hrun, run_change]
          cases hwrite : t.write p content with
          | error fault => exact .inl ⟨⟨fault, p⟩, t, rfl, hmade⟩
          | ok u =>
              obtain ⟨l, old, hlocate, hentry, rfl⟩ := Store.alter_ok hwrite
              have hput := Store.changes_put_file hentry content
              exact .inr ⟨l, _, rfl, (hmade.mono fun _ h => h.elim).trans hput, hput.locate hlocate,
                Store.entry_at_put_self hentry _⟩

end StoreWork

end TypeSuite
