import Mathlib.Data.List.TakeWhile
import TypeSuite.Proofs.Build.Outputs
import TypeSuite.Proofs.Config.Sections

/-!
# Directories of modules

A module lies in the directory of its file, or in the one of all modules, when its name is a single
name of a path. Suffixes hold no slashes, and extensions may: `output_stays_iff` says that a module
leaves its directory only by the names behind the first slash of its extension.
-/

namespace TypeSuite

namespace Path

variable {front back : List Char}

/-- The names in a text. -/
def names (cs : List Char) : List String :=
  ((pieces cs).filter isName).map String.ofList

/-- What stands in front of a slash is a piece. -/
theorem pieces_append_slash (h : '/' ∉ front) (back : List Char) :
    pieces (front ++ '/' :: back) = front :: pieces back := by
  induction front with
  | nil => rfl
  | cons c rest ih =>
      have hc : c ≠ '/' := fun heq => h (heq ▸ List.mem_cons_self)
      have hrest : '/' ∉ rest := fun hmem => h (List.mem_cons_of_mem _ hmem)
      rw [List.cons_append, pieces, ih hrest]
      exact hc

/-- The names in a text are the one in front of its first slash, if that is one, and those behind
it. -/
theorem names_append (h : '/' ∉ front) (hback : back = [] ∨ ∃ rest, back = '/' :: rest) :
    names (front ++ back) =
      (if isName front then [String.ofList front] else []) ++ names back := by
  have hempty : isName [] ≠ true := nofun
  rcases hback with rfl | ⟨rest, rfl⟩
  · rw [List.append_nil, names, names, pieces_of_not_mem h, pieces,
      List.filter_cons_of_neg hempty, List.filter_cons]
    split <;> rfl
  · have hrest : names ('/' :: rest) = names rest := by
      rw [names, pieces, List.filter_cons_of_neg hempty, names]
    rw [hrest, names, names, pieces_append_slash h, List.filter_cons]
    split <;> rfl

/-- A text from its first slash on is empty or starts with a slash. -/
theorem drop_while_cases (cs : List Char) : cs.dropWhile (· != '/') = [] ∨
    ∃ rest, cs.dropWhile (· != '/') = '/' :: rest := by
  cases hrest : cs.dropWhile (· != '/') with
  | nil => exact .inl rfl
  | cons c rest =>
      have hstop := List.head?_dropWhile_not (· != '/') cs
      rw [hrest] at hstop
      exact .inr ⟨rest, by simpa using hstop⟩

/-- A text without slashes stands in front of its first slash as a whole. -/
theorem take_while_of_plain {cs : List Char} (h : '/' ∉ cs) :
    cs.takeWhile (· != '/') = cs ∧ cs.dropWhile (· != '/') = [] := by
  have hother : ∀ c ∈ cs, (c != '/') = true := fun c hc =>
    bne_iff_ne.mpr fun heq => h (heq ▸ hc)
  exact ⟨List.takeWhile_eq_self_iff.mpr hother, List.dropWhile_eq_nil_iff.mpr hother⟩

/-- A text that starts with something else than a slash has no root. -/
theorem root_of_append (h : '/' ∉ front) (hfront : front ≠ []) (back : List Char) :
    rootOf (front ++ back) = "" := by
  cases front with
  | nil => exact absurd rfl hfront
  | cons c rest =>
      have hc : c ≠ '/' := fun heq => h (heq ▸ List.mem_cons_self)
      rw [List.cons_append]
      unfold rootOf
      split <;> simp_all

/-- The parent of a path that adds names to another one is that one if and only if it adds a single
name, or none to a path that has none. -/
theorem parent_join_iff (base : Path) (added : List String) :
    (base.join ⟨"", added⟩).parent = base ↔
      added.length = 1 ∨ added = [] ∧ base.parts = [] := by
  obtain ⟨root, parts⟩ := base
  have hjoin : join ⟨root, parts⟩ ⟨"", added⟩ = ⟨root, parts ++ added⟩ := rfl
  rw [hjoin, parent, Path.mk.injEq, eq_self, true_and]
  constructor
  · intro h
    have hlength := congrArg List.length h
    rw [List.length_dropLast, List.length_append] at hlength
    rw [← List.length_eq_zero_iff, ← List.length_eq_zero_iff]
    dsimp only at hlength ⊢
    omega
  · rintro (h | ⟨rfl, hparts⟩)
    · obtain ⟨name, rfl⟩ := List.length_eq_one_iff.mp h
      exact List.dropLast_concat
    · dsimp only at hparts ⊢
      rw [hparts]
      rfl

/-- No stem of a path holds a slash. -/
theorem slash_not_mem_stem (text : String) : '/' ∉ (ofString text).stem.toList := by
  rw [stem, String.toList_ofList]
  intro hmem
  have hname := mem_of_mem_stem hmem
  rw [name] at hname
  cases hlast : (ofString text).parts.getLast? with
  | none =>
      rw [hlast] at hname
      cases hname
  | some last =>
      rw [hlast] at hname
      exact (name_of_mem_parts (List.mem_of_getLast? hlast)).2 hname

/-- A path with a name has a stem. -/
theorem stem_ne_nil_of_parts {text : String} (h : (ofString text).parts ≠ []) :
    (ofString text).stem.toList ≠ [] := by
  rw [stem, String.toList_ofList, name, List.getLast?_eq_some_getLast h, Option.getD_some]
  exact stem_ne_nil (name_of_mem_parts (List.getLast_mem h)).1

end Path

/-- The names behind the first slash of the extension. -/
def OutputConfig.innerNames (o : OutputConfig) : List String :=
  Path.names (o.extension.toList.dropWhile (· != '/'))

namespace Builder

variable {b : Builder} {x : String} {given : List (Value × Value)}

/-- What the name of a module has in front of its first slash. -/
def frontName (b : Builder) (x : String) : List Char :=
  (Path.ofString x).stem.toList ++ b.config.output.suffix.toList ++
    b.config.output.extension.toList.takeWhile (· != '/')

/-- The name of a module starts with what it has in front of the first slash of the extension. -/
theorem module_name_eq (b : Builder) (x : String) :
    (b.moduleName x).toList =
      b.frontName x ++ b.config.output.extension.toList.dropWhile (· != '/') := by
  rw [moduleName, frontName, String.toList_append, String.toList_append, List.append_assoc _ _
    (List.dropWhile _ _), List.takeWhile_append_dropWhile]

/-- A valid suffix holds no slash. -/
theorem slash_not_mem_suffix (h : b.config.IsValid) : '/' ∉ b.config.output.suffix.toList := by
  cases h .suffix with
  | text hallows => exact hallows.1

/-- A valid extension is a dot and something behind it. -/
theorem extension_eq (h : b.config.IsValid) :
    ∃ c rest, b.config.output.extension.toList = '.' :: c :: rest := by
  cases h .extension with
  | text hallows =>
      obtain ⟨⟨rest, hrest⟩, hlength⟩ := hallows
      rw [← hrest] at hlength ⊢
      cases rest with
      | nil => simp at hlength
      | cons c rest => exact ⟨c, rest, rfl⟩

/-- In front of its first slash, the name of a module has a text without slashes that is not
empty. -/
theorem front_name_plain (h : b.config.IsValid) (x : String) :
    '/' ∉ b.frontName x ∧ b.frontName x ≠ [] := by
  obtain ⟨c, rest, hextension⟩ := extension_eq h
  rw [frontName]
  constructor
  · simp only [List.mem_append, not_or]
    refine ⟨⟨Path.slash_not_mem_stem x, slash_not_mem_suffix h⟩, fun hmem => ?_⟩
    exact absurd (List.mem_takeWhile_imp hmem) (by decide)
  · rw [hextension, List.takeWhile_cons_of_pos (by decide)]
    simp

/-- The name of a module, read as a path, is what stands in front of its first slash, unless that
is a dot, and the names behind the first slash of the extension. -/
theorem module_path_eq (h : b.config.IsValid) (x : String) :
    Path.ofString (b.moduleName x) = ⟨"",
      (if b.frontName x = ['.'] then [] else [String.ofList (b.frontName x)]) ++
        b.config.output.innerNames⟩ := by
  obtain ⟨hslash, hempty⟩ := front_name_plain h x
  have hname : Path.isName (b.frontName x) = true ↔ b.frontName x ≠ ['.'] := by
    rw [Path.isName, Bool.and_eq_true, bne_iff_ne, bne_iff_ne]
    exact and_iff_right hempty
  have hparts := Path.names_append hslash
    (Path.drop_while_cases b.config.output.extension.toList)
  simp only [hname, ite_not] at hparts
  rw [Path.names, ← module_name_eq] at hparts
  rw [Path.ofString, hparts, module_name_eq, Path.root_of_append hslash hempty]
  rfl

/-- The path of a module is its name below its directory. -/
theorem output_path_join (b : Builder) (x : String) :
    b.outputPath (.ofString x) = (b.moduleDirectory x).join (.ofString (b.moduleName x)) :=
  rfl

/-- The path of a module adds names to its directory, and stays in it if that is a single one. -/
theorem output_parent_iff (h : b.config.IsValid) (x : String) :
    (b.outputPath (.ofString x)).parent = b.moduleDirectory x ↔
      if b.frontName x = ['.'] then b.config.output.innerNames.length = 1 ∨
        b.config.output.innerNames = [] ∧ (b.moduleDirectory x).parts = []
      else b.config.output.innerNames = [] := by
  rw [output_path_join, module_path_eq h, Path.parent_join_iff]
  by_cases hdot : b.frontName x = ['.']
  · rw [if_pos hdot, if_pos hdot, List.nil_append]
  · rw [if_neg hdot, if_neg hdot]
    simp

/-- What the name of a module has in front of its first slash is more than a dot when the path has a
stem or the extension no slash. -/
theorem front_name_ne_dot (h : b.config.IsValid)
    (hlong : (Path.ofString x).stem.toList ≠ [] ∨ '/' ∉ b.config.output.extension.toList) :
    b.frontName x ≠ ['.'] := by
  obtain ⟨c, rest, hextension⟩ := extension_eq h
  intro hdot
  have hlength := congrArg List.length hdot
  rw [frontName, List.length_append, List.length_append, List.length_singleton] at hlength
  rcases hlong with hstem | hplain
  · have hpos := List.length_pos_of_ne_nil hstem
    rw [hextension, List.takeWhile_cons_of_pos (by decide), List.length_cons] at hlength
    omega
  · obtain ⟨hwhole, -⟩ := Path.take_while_of_plain hplain
    rw [hwhole, hextension, List.length_cons, List.length_cons] at hlength
    omega

/-- Without a slash in the extension, a module has its name in its directory. -/
theorem output_path_of_plain (h : b.config.IsValid)
    (hplain : '/' ∉ b.config.output.extension.toList) (x : String) :
    (b.outputPath (.ofString x)).parent = b.moduleDirectory x ∧
      (b.outputPath (.ofString x)).name = b.moduleName x := by
  have hdot := front_name_ne_dot (x := x) h (.inr hplain)
  obtain ⟨-, hrest⟩ := Path.take_while_of_plain hplain
  have hinner : b.config.output.innerNames = [] := by
    rw [OutputConfig.innerNames, hrest]
    rfl
  have hfront : String.ofList (b.frontName x) = b.moduleName x := by
    rw [← String.ofList_toList (s := b.moduleName x), module_name_eq, hrest, List.append_nil]
  refine ⟨(output_parent_iff h x).mpr (by rwa [if_neg hdot]), ?_⟩
  rw [output_path_join, module_path_eq h, if_neg hdot, hinner, hfront, Path.name]
  simp [Path.join]

/-- A module of any valid configuration and any file stays in its directory, under its name, when
the extension has no slash. In general, that of a path with a name stays there if and only if the
extension has no names behind its first slash. That of a path without a name does so too, unless its
name would start with a single dot, which is no name: then it needs another one. -/
theorem output_stays_iff (hc : Config.ofEntries given = .ok b.config) (x : String) :
    ('/' ∉ b.config.output.extension.toList →
      (b.outputPath (.ofString x)).parent = b.moduleDirectory x ∧
        (b.outputPath (.ofString x)).name = b.moduleName x) ∧
    ((Path.ofString x).parts ≠ [] →
      ((b.outputPath (.ofString x)).parent = b.moduleDirectory x ↔
        b.config.output.innerNames = [])) ∧
    ((Path.ofString x).parts = [] →
      ((b.outputPath (.ofString x)).parent = b.moduleDirectory x ↔
        if b.frontName x = ['.'] then b.config.output.innerNames.length = 1 ∨
          b.config.output.innerNames = [] ∧ (b.moduleDirectory x).parts = []
        else b.config.output.innerNames = [])) := by
  have hvalid := Config.of_entries_is_valid hc
  refine ⟨fun hplain => output_path_of_plain hvalid hplain x, fun hnamed => ?_,
    fun _ => output_parent_iff hvalid x⟩
  rw [output_parent_iff hvalid, if_neg]
  exact front_name_ne_dot hvalid (.inl (Path.stem_ne_nil_of_parts hnamed))

/-- Entries of a configuration with a directory for modules and an extension. -/
def extensionEntries (extension : String) : List (Value × Value) :=
  [(.text "output", .map [(.text "out_dir", .text "gen"), (.text "extension", .text extension)])]

/-- A builder with a directory for modules and an extension. -/
def extensionBuilder (extension : String) : Builder :=
  ofConfig { output := { outDir := some "gen", extension } }

/-- A module stays in the directory of all modules with a plain extension, and also with one that
has nothing but a dot behind its slash. -/
theorem output_stays_iff_dots :
    (Config.ofEntries (extensionEntries ".d.ts") = .ok (extensionBuilder ".d.ts").config ∧
      '/' ∉ ".d.ts".toList ∧
      ((extensionBuilder ".d.ts").outputPath (.ofString "src/a.ts")).parent = .ofString "gen") ∧
    Config.ofEntries (extensionEntries ".d/.") = .ok (extensionBuilder ".d/.").config ∧
      (Path.ofString "src/a.ts").parts ≠ [] ∧
      ((extensionBuilder ".d/.").outputPath (.ofString "src/a.ts")).parent = .ofString "gen" := by
  have hplain : Config.ofEntries (extensionEntries ".d.ts") =
      .ok (extensionBuilder ".d.ts").config := rfl
  have hdot : Config.ofEntries (extensionEntries ".d/.") =
      .ok (extensionBuilder ".d/.").config := rfl
  obtain ⟨hstays, -⟩ := output_stays_iff hplain "src/a.ts"
  obtain ⟨-, hnamed, -⟩ := output_stays_iff hdot "src/a.ts"
  refine ⟨⟨hplain, by decide, (hstays (by decide)).1⟩, hdot, by decide, ?_⟩
  exact (hnamed (by decide)).mpr (by decide)

/-- With names behind the slash of its extension, a module leaves the directory of all modules. The
configuration is valid. -/
theorem module_leaves_directory :
    Config.ofEntries (extensionEntries "./../../x.ts") =
        .ok (extensionBuilder "./../../x.ts").config ∧
      (extensionBuilder "./../../x.ts").config.output.outDir = some "gen" ∧
      (extensionBuilder "./../../x.ts").outputPath (.ofString "src/a.ts") =
        ⟨"", ["gen", "a-ti.", "..", "..", "x.ts"]⟩ ∧
      ((extensionBuilder "./../../x.ts").outputPath (.ofString "src/a.ts")).parent ≠
        .ofString "gen" := by
  decide +kernel

end Builder

end TypeSuite
