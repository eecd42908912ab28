import TypeSuite.Store.Report

/-!
# Places in a store

A file that is put at a place is there afterwards, and nothing is changed elsewhere. A path leads to
the same place as before, unless it broke off at that very place because nothing was there.
-/

namespace TypeSuite

/-- Whether a name of a path holds the null character. -/
def Path.hasNull (p : Path) : Bool :=
  p.parts.any fun name => name.toList.contains '\x00'

/-- A null character above a path is one in the path. -/
theorem Path.hasNull_of_parent {p : Path} (h : p.parent.hasNull = true) : p.hasNull = true := by
  obtain ⟨name, hname, hnull⟩ := List.any_eq_true.mp h
  exact List.any_eq_true.mpr ⟨name, List.dropLast_subset _ hname, hnull⟩

/-- A file error has a report unless its path holds the null character. -/
theorem FileError.message_eq_none_iff {e : FileError} :
    e.message? = none ↔ e.fault = .nullInName := by
  rw [message?, Option.map_eq_none_iff]
  cases e.fault <;> simp [FileFault.description?]

namespace Store

variable {s : Store} {l : Location}

/-! ## Entries -/

/-- Leaving out the entries of another place does not change what is found. -/
theorem lookup_filter_of_ne {k l : Location} (h : k ≠ l) (entries : List (Location × Entry)) :
    (entries.filter fun old => !(old.1 == l)).lookup k = entries.lookup k := by
  induction entries with
  | nil => rfl
  | cons entry rest ih =>
      obtain ⟨place, e⟩ := entry
      by_cases hplace : place = l
      · have hother : (k == place) = false := by simpa [hplace] using h
        rw [List.filter_cons_of_neg (by simp [hplace]), ih, List.lookup_cons, hother]
      · rw [List.filter_cons_of_pos (by simp [hplace]), List.lookup_cons, List.lookup_cons, ih]

/-- An entry that is put at a place leaves all other places alone. -/
theorem entry_at_put_of_ne {k : Location} (h : k ≠ l) (e : Entry) :
    (s.put l e).entryAt? k = s.entryAt? k := by
  have hne : (k == l) = false := beq_false_of_ne h
  rw [entryAt?, entryAt?, put, List.lookup_cons, hne, lookup_filter_of_ne h]

/-- An entry is found at the place it was put, unless the way home leads through it. -/
theorem entry_at_put_self (h : s.entryAt? l ≠ some .directory) (e : Entry) :
    (s.put l e).entryAt? l = some e := by
  rw [entryAt?] at h ⊢
  split at h
  case isTrue => exact absurd rfl h
  case isFalse hhome => rw [put, if_neg hhome, List.lookup_cons, beq_self_eq_true]

/-- The home of a store is a directory. -/
theorem entry_at_home (s : Store) : s.entryAt? s.home = some .directory :=
  if_pos (List.isPrefixOf_iff_prefix.mpr (List.prefix_refl s.home))

/-- The root of a store is a directory. -/
theorem entry_at_root (s : Store) : s.entryAt? [] = some .directory :=
  rfl

/-! ## Paths -/

/-- A path leads where its names lead from its root or from home, unless it holds a null
character. -/
theorem locate_eq (s : Store) (p : Path) :
    s.locate p = if p.hasNull then .error .nullInName
      else s.walk (if p.root.isEmpty then s.home else []) p.parts :=
  rfl

/-- A name that leads to a directory is followed by the other names from there. -/
theorem walk_cons_of_directory {name : String} {rest : List String}
    (hsize : name.utf8ByteSize ≤ maxNameSize) (hentry : s.entryAt? (step l name) = some .directory) :
    s.walk l (name :: rest) = s.walk (step l name) rest := by
  rw [walk, if_neg (Nat.not_lt.mpr hsize)]
  cases rest with
  | nil => rfl
  | cons next others => rw [if_neg (by simp), hentry]

/-- Names that lead to a place have a single name for it, or their first name leads to a directory
and the others from there to the place. -/
theorem walk_cons_cases {name : String} {rest : List String} {m : Location}
    (h : s.walk l (name :: rest) = .ok m) :
    name.utf8ByteSize ≤ maxNameSize ∧ ((rest = [] ∧ m = step l name) ∨
      rest ≠ [] ∧ s.entryAt? (step l name) = some .directory ∧
        s.walk (step l name) rest = .ok m) := by
  rw [walk] at h
  split at h
  case isTrue => cases h
  case isFalse hsize =>
    refine ⟨Nat.not_lt.mp hsize, ?_⟩
    split at h
    case isTrue hlast => exact .inl ⟨by simpa using hlast, (Except.ok.inj h).symm⟩
    case isFalse hlast =>
      split at h
      case h_1 => cases h
      case h_2 => cases h
      case h_3 hentry => exact .inr ⟨by simpa using hlast, hentry, h⟩

/-- The place at which names that are followed from a directory break off because nothing is
there. -/
def gap? (s : Store) (l : Location) : List String → Option Location
  | [] => none
  | name :: rest =>
    if maxNameSize < name.utf8ByteSize then none
    else if rest.isEmpty then none
    else match s.entryAt? (step l name) with
      | none => some (step l name)
      | some (.file _) => none
      | some .directory => gap? s (step l name) rest

/-- The place at which a path breaks off because nothing is there. -/
def gapOf? (s : Store) (p : Path) : Option Location :=
  s.gap? (if p.root.isEmpty then s.home else []) p.parts

/-- Names that lead to a place do not break off. -/
theorem gap_eq_none_of_walk {names : List String} {m : Location} (h : s.walk l names = .ok m) :
    s.gap? l names = none := by
  induction names generalizing l with
  | nil => rfl
  | cons name rest ih =>
      obtain ⟨hsize, ⟨rfl, -⟩ | ⟨hrest, hentry, hwalk⟩⟩ := walk_cons_cases h
      · simp [gap?]
      · rw [gap?, if_neg (Nat.not_lt.mpr hsize), if_neg (by simpa using hrest), hentry]
        exact ih hwalk

/-- A file that is put where no directory is leads names to the same place, and lets them break off
at the same place, unless they broke off there. -/
theorem walk_put {k : Location} (h : s.entryAt? k ≠ some .directory) (content : ByteArray)
    {names : List String} (hgap : s.gap? l names ≠ some k) :
    (s.put k (.file content)).walk l names = s.walk l names ∧
      (s.put k (.file content)).gap? l names = s.gap? l names := by
  induction names generalizing l with
  | nil => exact ⟨rfl, rfl⟩
  | cons name rest ih =>
      rw [gap?] at hgap
      rw [walk, walk, gap?, gap?]
      split at hgap
      case isTrue hsize => simp only [if_pos hsize, and_self]
      case isFalse hsize =>
        simp only [if_neg hsize]
        split at hgap
        case isTrue hlast => simp only [if_pos hlast, and_self]
        case isFalse hlast =>
          simp only [if_neg hlast]
          by_cases hplace : step l name = k
          · -- The names pass a file that was there before, so they end here with the same fault.
            rw [hplace] at hgap ⊢
            rw [entry_at_put_self h]
            cases hentry : s.entryAt? k with
            | none =>
                rw [hentry] at hgap
                exact absurd rfl hgap
            | some entry =>
                cases entry with
                | file old => exact ⟨rfl, rfl⟩
                | directory => exact absurd hentry h
          · rw [entry_at_put_of_ne hplace]
            cases hentry : s.entryAt? (step l name) with
            | none => exact ⟨rfl, rfl⟩
            | some entry =>
                cases entry with
                | file old => exact ⟨rfl, rfl⟩
                | directory =>
                    rw [hentry] at hgap
                    exact ih hgap

/-- A path to a place does not break off. -/
theorem gap_of_locate {p : Path} (h : s.locate p = .ok l) : s.gapOf? p = none := by
  rw [locate_eq] at h
  split at h
  case isTrue => cases h
  case isFalse => exact gap_eq_none_of_walk h

/-- A file that is put where no directory is leaves a path leading to its place, unless the path
broke off there. -/
theorem locate_put (h : s.entryAt? l ≠ some .directory) (content : ByteArray) {p : Path}
    (hgap : s.gapOf? p ≠ some l) :
    (s.put l (.file content)).locate p = s.locate p ∧
      (s.put l (.file content)).gapOf? p = s.gapOf? p := by
  obtain ⟨hwalk, hgap⟩ := walk_put h content hgap
  refine ⟨?_, hgap⟩
  rw [locate_eq, locate_eq]
  split
  case isTrue => rfl
  case isFalse => exact hwalk

/-- A file that is put at a place leaves what is read at a path that leads elsewhere. -/
theorem read_put (h : s.entryAt? l ≠ some .directory) (content : ByteArray) {p : Path}
    (hgap : s.gapOf? p ≠ some l) (hplace : s.locate p ≠ .ok l) :
    (s.put l (.file content)).read p = s.read p := by
  rw [read, read, find, find, (locate_put h content hgap).1]
  cases hlocate : s.locate p with
  | error fault => rfl
  | ok k =>
      have hne : k ≠ l := fun heq => hplace (heq ▸ hlocate)
      simp only [bind, Except.bind, entry_at_put_of_ne hne]

/-! ## Directories above a place -/

/-- The directory that all but the last of some names lead to. -/
theorem walk_dropLast {names : List String} {m : Location} (h : s.walk l names = .ok m)
    (hl : s.entryAt? l = some .directory) :
    ∃ k, s.walk l names.dropLast = .ok k ∧ s.entryAt? k = some .directory := by
  induction names generalizing l with
  | nil => exact ⟨l, rfl, hl⟩
  | cons name rest ih =>
      obtain ⟨hsize, ⟨rfl, -⟩ | ⟨hrest, hentry, hwalk⟩⟩ := walk_cons_cases h
      · exact ⟨l, rfl, hl⟩
      · obtain ⟨k, hk, hdirectory⟩ := ih hwalk hentry
        rw [List.dropLast_cons_of_ne_nil hrest]
        exact ⟨k, (walk_cons_of_directory hsize hentry).trans hk, hdirectory⟩

/-- Names lead to the place of the last one from the directory that the others lead to. -/
theorem walk_concat {names : List String} {name : String} {m : Location}
    (h : s.walk l (names ++ [name]) = .ok m) :
    ∃ k, s.walk l names = .ok k ∧ m = step k name := by
  induction names generalizing l with
  | nil =>
      obtain ⟨-, ⟨-, rfl⟩ | ⟨hrest, -⟩⟩ := walk_cons_cases h
      · exact ⟨l, rfl, rfl⟩
      · exact absurd rfl hrest
  | cons first rest ih =>
      obtain ⟨hsize, ⟨hnil, -⟩ | ⟨-, hentry, hwalk⟩⟩ := walk_cons_cases h
      · simp at hnil
      · obtain ⟨k, hk, hm⟩ := ih hwalk
        exact ⟨k, (walk_cons_of_directory hsize hentry).trans hk, hm⟩

/-- The parent of a path to a place is a path to a directory. -/
theorem locate_parent {p : Path} (h : s.locate p = .ok l) :
    ∃ k, s.locate p.parent = .ok k ∧ s.entryAt? k = some .directory := by
  rw [locate_eq] at h
  split at h
  case isTrue => cases h
  case isFalse hnull =>
    have hstart : s.entryAt? (if p.root.isEmpty then s.home else []) = some .directory := by
      split
      · exact entry_at_home s
      · exact entry_at_root s
    obtain ⟨k, hwalk, hk⟩ := walk_dropLast h hstart
    refine ⟨k, ?_, hk⟩
    rw [locate_eq, if_neg fun h => hnull (Path.hasNull_of_parent h)]
    exact hwalk

/-! ## Null characters -/

/-- Names are followed without regard to null characters. -/
theorem walk_ne_null (names : List String) : s.walk l names ≠ .error .nullInName := by
  induction names generalizing l with
  | nil => exact nofun
  | cons name rest ih =>
      rw [walk]
      split
      case isTrue => exact nofun
      case isFalse =>
        split
        case isTrue => exact nofun
        case isFalse =>
          split
          case h_1 => exact nofun
          case h_2 => exact nofun
          case h_3 => exact ih

/-- A path is refused for a null character if and only if one of its names holds one. -/
theorem locate_eq_null_iff {p : Path} : s.locate p = .error .nullInName ↔ p.hasNull = true := by
  rw [locate_eq]
  split
  case isTrue h => exact iff_of_true rfl h
  case isFalse h => exact iff_of_false (walk_ne_null _) h

/-- A file cannot be read for a null character only if its path holds one. -/
theorem hasNull_of_read {p : Path} (h : s.read p = .error .nullInName) : p.hasNull = true := by
  rw [read, find] at h
  cases hlocate : s.locate p with
  | error fault =>
      rw [hlocate] at h
      obtain rfl : fault = .nullInName := Except.error.inj h
      exact locate_eq_null_iff.mp hlocate
  | ok l =>
      rw [hlocate] at h
      simp only [bind, Except.bind] at h
      cases hentry : s.entryAt? l with
      | none =>
          rw [hentry] at h
          cases h
      | some entry =>
          rw [hentry] at h
          cases entry <;> cases h

end Store

end TypeSuite
