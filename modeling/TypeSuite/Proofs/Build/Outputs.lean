import TypeSuite.Proofs.Build.Isolation

/-!
# Where modules go

A module has the directory of its file, or the one of all modules, and the stem of its file with a
suffix and an extension for a name. When neither of these holds a slash, two modules have one place
only if their files have one stem and their directories have one place (`same_place_iff`).
-/

namespace TypeSuite

namespace Path

/-! ## Names -/

/-- A text without slashes is one piece. -/
theorem pieces_of_not_mem {cs : List Char} (h : '/' ∉ cs) : pieces cs = [cs] := by
  induction cs with
  | nil => rfl
  | cons c rest ih =>
      have hc : c ≠ '/' := fun heq => h (heq ▸ List.mem_cons_self)
      have hrest : '/' ∉ rest := fun hmem => h (List.mem_cons_of_mem _ hmem)
      rw [pieces, ih hrest]
      exact hc

/-- No piece holds a slash. -/
theorem slash_not_mem_piece {cs piece : List Char} (h : piece ∈ pieces cs) : '/' ∉ piece := by
  induction cs using pieces.induct generalizing piece with
  | case1 =>
      rw [pieces, List.mem_singleton] at h
      simp [h]
  | case2 rest ih =>
      rw [pieces] at h
      rcases List.mem_cons.mp h with rfl | hrest
      · simp
      · exact ih hrest
  | case3 c rest hc hnone ih =>
      rw [pieces, hnone] at h
      · rw [List.mem_singleton] at h
        simpa [h] using fun heq => hc heq.symm
      · exact hc
  | case4 c rest hc first more hpieces ih =>
      rw [pieces, hpieces] at h
      · rcases List.mem_cons.mp h with rfl | hmore
        · have hfirst := ih (hpieces ▸ List.mem_cons_self)
          simpa [hfirst] using fun heq => hc heq.symm
        · exact ih (hpieces ▸ List.mem_cons_of_mem _ hmore)
      · exact hc

/-- A name of a path is not empty and holds no slash. -/
theorem name_of_mem_parts {text name : String} (h : name ∈ (ofString text).parts) :
    name.toList ≠ [] ∧ '/' ∉ name.toList := by
  obtain ⟨piece, hpiece, rfl⟩ := List.mem_map.mp h
  obtain ⟨hmem, hname⟩ := List.mem_filter.mp hpiece
  rw [String.toList_ofList]
  refine ⟨?_, slash_not_mem_piece hmem⟩
  rintro rfl
  cases hname

/-- A text without slashes that is not empty and no dot is a path of one name. -/
theorem of_string_eq {text : String} (hslash : '/' ∉ text.toList) (hempty : text.toList ≠ [])
    (hdot : text.toList ≠ ['.']) : ofString text = ⟨"", [text]⟩ := by
  have hroot : rootOf text.toList = "" := by
    unfold rootOf
    split <;> simp_all
  have hname : isName text.toList = true := by simp [isName, hempty, hdot]
  rw [ofString, hroot, pieces_of_not_mem hslash, List.filter_cons_of_pos hname]
  simp

/-- The characters of a stem are characters of the name. -/
theorem mem_of_mem_stem {c : Char} {name : List Char} (h : c ∈ stemOf name) : c ∈ name := by
  unfold stemOf at h
  dsimp only at h
  split at h
  case h_1 before hdrop =>
    split at h
    · exact h
    · have hmem : c ∈ name.reverse.drop (name.reverse.takeWhile (· != '.')).length := by
        rw [hdrop]
        exact List.mem_cons_of_mem _ (List.mem_reverse.mp h)
      exact List.mem_reverse.mp (List.mem_of_mem_drop hmem)
  case h_2 => exact h

/-- Only an empty name has an empty stem. -/
theorem stem_ne_nil {name : List Char} (h : name ≠ []) : stemOf name ≠ [] := by
  unfold stemOf
  dsimp only
  split
  case h_1 before _ =>
    split
    case isTrue => exact h
    case isFalse hbefore =>
      rw [Bool.or_eq_true, not_or] at hbefore
      simpa using hbefore.1
  case h_2 => exact h

/-- The path ends in a name. -/
def IsNamed (p : Path) : Prop :=
  p.parts ≠ [] ∧ p.name ≠ ".."

end Path

namespace Store

variable {s : Store} {l m : Location} {p : Path} {content : ByteArray}

/-- A path leads to the place of its name in the directory that its parent leads to. -/
theorem locate_name (h : s.locate p = .ok l) (hnamed : p.IsNamed) :
    ∃ k, s.locate p.parent = .ok k ∧ l = k ++ [p.name] := by
  obtain ⟨hparts, hname⟩ := hnamed
  have hsplit : p.parent.parts ++ [p.name] = p.parts := by
    rw [Path.parent, Path.name, List.getLast?_eq_some_getLast hparts, Option.getD_some,
      List.dropLast_concat_getLast]
  rw [locate_eq] at h
  split at h
  case isTrue => cases h
  case isFalse hnull =>
    rw [← hsplit] at h
    obtain ⟨k, hwalk, hl⟩ := walk_concat h
    refine ⟨k, ?_, ?_⟩
    · rw [locate_eq, if_neg fun h => hnull (Path.hasNull_of_parent h)]
      exact hwalk
    · rw [hl, step, if_neg (by simpa using hname)]

/-- Two paths lead to one place if and only if they have one name and their parents lead to one
place. -/
theorem same_place_iff {p' : Path} (hp : s.locate p = .ok l) (hp' : s.locate p' = .ok m)
    (hnamed : p.IsNamed) (hnamed' : p'.IsNamed) :
    l = m ↔ s.locate p.parent = s.locate p'.parent ∧ p.name = p'.name := by
  obtain ⟨k, hk, rfl⟩ := locate_name hp hnamed
  obtain ⟨k', hk', rfl⟩ := locate_name hp' hnamed'
  rw [hk, hk']
  constructor
  · intro heq
    obtain ⟨hparent, hname⟩ := List.append_inj' heq (by simp)
    exact ⟨congrArg _ hparent, List.singleton_inj.mp hname⟩
  · rintro ⟨hparent, hname⟩
    rw [Except.ok.inj hparent, hname]

/-- A path to a file has a name. -/
theorem parts_ne_nil_of_read (h : s.read p = .ok content) : p.parts ≠ [] := by
  intro hparts
  obtain ⟨l, hlocate, hentry⟩ := entry_of_read h
  rw [locate_eq, hparts] at hlocate
  split at hlocate
  case isTrue => cases hlocate
  case isFalse =>
    have hdirectory : s.entryAt? l = some .directory := by
      obtain rfl := Except.ok.inj hlocate
      split
      · exact entry_at_home s
      · exact entry_at_root s
    cases hentry.symm.trans hdirectory

end Store

/-- Settings under which a module has one name in its directory. -/
structure OutputConfig.IsPlain (o : OutputConfig) : Prop where
  suffix : '/' ∉ o.suffix.toList
  extension : ∃ c rest, o.extension.toList = '.' :: c :: rest ∧ '/' ∉ o.extension.toList

namespace Builder

variable {b : Builder} {s : Store} {x y : String} {l m : Location}

/-- The name of the module of a file. -/
def moduleName (b : Builder) (source : String) : String :=
  (Path.ofString source).stem ++ b.config.output.suffix ++ b.config.output.extension

/-- The directory of the module of a file. -/
def moduleDirectory (b : Builder) (source : String) : Path :=
  match b.config.output.outDir with
  | none => (Path.ofString source).parent
  | some directory =>
    if directory.isEmpty then (Path.ofString source).parent else .ofString directory

/-- The name of a module has at least three characters and no slash. -/
theorem module_name_plain (h : b.config.output.IsPlain) (hx : (Path.ofString x).parts ≠ []) :
    '/' ∉ (b.moduleName x).toList ∧ 3 ≤ (b.moduleName x).toList.length := by
  obtain ⟨c, rest, hextension, hslash⟩ := h.extension
  have hname : (Path.ofString x).name ∈ (Path.ofString x).parts := by
    rw [Path.name, List.getLast?_eq_some_getLast hx, Option.getD_some]
    exact List.getLast_mem hx
  obtain ⟨hempty, hplain⟩ := Path.name_of_mem_parts hname
  have hstem : '/' ∉ (Path.ofString x).stem.toList := by
    intro hmem
    rw [Path.stem, String.toList_ofList] at hmem
    exact hplain (Path.mem_of_mem_stem hmem)
  have hlength : 0 < (Path.ofString x).stem.toList.length := by
    rw [Path.stem, String.toList_ofList]
    exact List.length_pos_of_ne_nil (Path.stem_ne_nil hempty)
  rw [moduleName, String.toList_append, String.toList_append]
  constructor
  · simp only [List.mem_append, not_or]
    exact ⟨⟨hstem, h.suffix⟩, hslash⟩
  · rw [List.length_append, List.length_append, hextension, List.length_cons, List.length_cons]
    omega

/-- The path of a module has one name behind its directory. -/
theorem output_path_eq (h : b.config.output.IsPlain) (hx : (Path.ofString x).parts ≠ []) :
    b.outputPath (.ofString x) =
      ⟨(b.moduleDirectory x).root, (b.moduleDirectory x).parts ++ [b.moduleName x]⟩ := by
  obtain ⟨hslash, hlength⟩ := module_name_plain h hx
  have hfile : Path.ofString (b.moduleName x) = ⟨"", [b.moduleName x]⟩ := by
    apply Path.of_string_eq hslash
    · intro hnil
      simp [hnil] at hlength
    · intro hdot
      simp [hdot] at hlength
  rw [outputPath, ← moduleName, hfile]
  rfl

/-- The path of a module ends in its name, behind its directory. -/
theorem output_path_is_named (h : b.config.output.IsPlain) (hx : (Path.ofString x).parts ≠ []) :
    (b.outputPath (.ofString x)).IsNamed ∧
      (b.outputPath (.ofString x)).parent = b.moduleDirectory x ∧
      (b.outputPath (.ofString x)).name = b.moduleName x := by
  obtain ⟨-, hlength⟩ := module_name_plain h hx
  have hname : (b.outputPath (.ofString x)).name = b.moduleName x := by
    rw [output_path_eq h hx, Path.name, List.getLast?_concat, Option.getD_some]
  refine ⟨⟨by simp [output_path_eq h hx], ?_⟩, ?_, hname⟩
  · intro hdots
    rw [hname] at hdots
    simp [hdots] at hlength
  · rw [output_path_eq h hx, Path.parent, List.dropLast_concat]

/-- A module is where a path leads if and only if the path ends in the name of the module and its
parent leads to the directory of the module. -/
theorem place_of_eq_iff (h : b.config.output.IsPlain) (hx : (Path.ofString x).parts ≠ [])
    (hplace : b.placeOf s x = .ok l) {p : Path} (hp : s.locate p = .ok m) (hnamed : p.IsNamed) :
    l = m ↔ s.locate (b.moduleDirectory x) = s.locate p.parent ∧ b.moduleName x = p.name := by
  obtain ⟨hmodule, hparent, hname⟩ := output_path_is_named h hx
  rw [Store.same_place_iff hplace hp hmodule hnamed, hparent, hname]

/-- Two modules have one place if and only if their files have one stem and their directories one
place. -/
theorem same_place_iff (h : b.config.output.IsPlain) (hx : (Path.ofString x).parts ≠ [])
    (hy : (Path.ofString y).parts ≠ []) (hplace : b.placeOf s x = .ok l)
    (hplace' : b.placeOf s y = .ok m) :
    l = m ↔ s.locate (b.moduleDirectory x) = s.locate (b.moduleDirectory y) ∧
      (Path.ofString x).stem = (Path.ofString y).stem := by
  obtain ⟨hmodule, hparent, hname⟩ := output_path_is_named h hy
  rw [place_of_eq_iff h hx hplace hplace' hmodule, hparent, hname]
  simp [moduleName]

end Builder

end TypeSuite
