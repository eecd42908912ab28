import Mathlib.Data.List.Nodup
import Mathlib.Data.List.Range
import TypeSuite.Proofs.Node.Evaluated

/-!
# Places of nodes

A place in a tree says which field to go into at each node on the way down from the root, so equal
nodes in different places are told apart. `evaluated_placed` says that the evaluated nodes of a tree
stand in places of their own, on ways down through evaluated fields, and `Placed.names` says so for
the names that they declare.
-/

namespace TypeSuite.Node

/-- A way down a tree: the position among the fields at each node. -/
abbrev Place := List Nat

/-- The node in a place of a tree. -/
def at? (n : Node) : Place → Option Node
  | [] => some n
  | i :: inner => n.children[i]?.bind (at? · inner)

/-- Two ways down, one behind the other, lead to where the second one leads from the first. -/
theorem at_append (n : Node) (above inner : Place) :
    n.at? (above ++ inner) = (n.at? above).bind (at? · inner) := by
  induction above generalizing n with
  | nil => rfl
  | cons i above ih => cases hchild : n.children[i]? <;> simp [at?, hchild, ih]

/-- Nodes stand in places of a tree, one after the other and each in a place of its own. -/
structure Placed (n : Node) (places : List Place) (ns : List Node) : Prop where
  distinct : places.Nodup
  stand : places.map n.at? = ns.map some

/-- In each of the places stands one of the nodes. -/
theorem Placed.exists_at {n : Node} {places : List Place} {ns : List Node}
    (h : n.Placed places ns) {place : Place} (hplace : place ∈ places) :
    ∃ m ∈ ns, n.at? place = some m := by
  have hstands : n.at? place ∈ places.map n.at? := List.mem_map_of_mem hplace
  rw [h.stand] at hstands
  obtain ⟨m, hm, hsame⟩ := List.mem_map.mp hstands
  exact ⟨m, hm, hsame.symm⟩

/-- The first nodes of those in places stand in the first of these places. -/
theorem Placed.of_prefix {n : Node} {places : List Place} {first ns : List Node}
    (h : n.Placed places ns) (hfirst : first <+: ns) :
    n.Placed (places.take first.length) first where
  distinct := h.distinct.sublist (List.take_sublist _ _)
  stand := by rw [List.map_take, h.stand, ← List.map_take, ← List.prefix_iff_eq_take.mp hfirst]

/-! ## Evaluated fields -/

/-- The positions of fields that stand side by side from a position on. -/
def span (start : Nat) (ns : List Node) : List Nat :=
  List.range' start ns.length

/-- The positions of the evaluated fields among the fields of a node, in the order of their
compilation. -/
def evaluatedPositions (wrapper : String) : Node → List Nat
  | .parameter _ type _ _ => span 1 type.toList
  | .property _ type _ _ => span 1 type.toList
  | .method _ parameters type _ => span (1 + parameters.length) type.toList ++ span 1 parameters
  | .reference name [_] _ => if name.text = wrapper then [1] else []
  | .reference .. => []
  | .function parameters type _ => span parameters.length type.toList ++ span 0 parameters
  | .typeLiteral members _ => span 0 members
  | .array .. => [0]
  | .tuple elements _ => span 0 elements
  | .union types _ => span 0 types
  | .interface _ bases members _ => span (1 + bases.length) members ++ span 1 bases
  | .alias .. => [1]
  | .heritage .. => [0]
  | .parenthesized .. => [0]
  | .sourceFile _ statements _ =>
    (span 0 statements).filter fun i => statements[i]?.any (·.kind.isHandled)
  | .identifier _ | .stringLiteral _ | .numericLiteral _ | .computedName _ | .literal _
  | .keyword .. | .unknown .. => []

/-- Nodes that stand side by side stand in their positions. -/
theorem map_get_span {start : Nat} {cs ns : List Node} (before after : List Node)
    (hcs : cs = before ++ ns ++ after) (hstart : start = before.length) :
    (span start ns).map (cs[·]?) = ns.map some := by
  refine List.ext_getElem (by simp [span]) fun i _ hi => ?_
  have hlt : i < ns.length := by simpa using hi
  simp only [span, List.getElem_map, List.getElem_range', Nat.one_mul]
  rw [hcs, hstart, List.append_assoc, List.getElem?_append_right (by omega),
    Nat.add_sub_cancel_left, List.getElem?_append_left hlt, List.getElem?_eq_getElem hlt]

/-- The evaluated fields stand in their positions. -/
theorem map_evaluated_positions (wrapper : String) (n : Node) :
    (n.evaluatedPositions wrapper).map (n.children[·]?) = (n.evaluatedFields wrapper).map some := by
  cases n with
  | parameter name type | property name type =>
      exact map_get_span [name] [] (by simp [children]) rfl
  | method name parameters type =>
      rw [evaluatedPositions, evaluatedFields, List.map_append, List.map_append]
      exact congrArg₂ (· ++ ·)
        (map_get_span (name :: parameters) [] (by simp [children]) (Nat.add_comm ..))
        (map_get_span [name] type.toList (by simp [children]) rfl)
  | function parameters type =>
      rw [evaluatedPositions, evaluatedFields, List.map_append, List.map_append]
      exact congrArg₂ (· ++ ·) (map_get_span parameters [] (by simp [children]) rfl)
        (map_get_span [] type.toList (by simp [children]) rfl)
  | interface name bases members =>
      rw [evaluatedPositions, evaluatedFields, List.map_append, List.map_append]
      exact congrArg₂ (· ++ ·)
        (map_get_span (name :: bases) [] (by simp [children]) (Nat.add_comm ..))
        (map_get_span [name] members (by simp [children]) rfl)
  | reference name arguments text =>
      cases arguments with
      | nil => rfl
      | cons argument rest =>
          cases rest with
          | nil =>
              rw [evaluatedFields, evaluatedPositions]
              split <;> rfl
          | cons => rfl
  | sourceFile fileName statements =>
      have hstatements : (span 0 statements).map (statements[·]?) = statements.map some :=
        map_get_span [] [] (by simp) rfl
      rw [evaluatedPositions, evaluatedFields, children]
      calc
        _ = ((span 0 statements).map (statements[·]?)).filter (·.any (·.kind.isHandled)) := by
          rw [List.filter_map]
          rfl
        _ = (statements.filter (·.kind.isHandled)).map some := by
          rw [hstatements, List.filter_map]
          rfl
  | typeLiteral list | tuple list | union list => exact map_get_span [] [] (by simp [children]) rfl
  | _ => rfl

/-- No field is evaluated twice. -/
theorem nodup_evaluated_positions (wrapper : String) (n : Node) :
    (n.evaluatedPositions wrapper).Nodup := by
  cases n with
  | parameter | property | typeLiteral | tuple | union => exact List.nodup_range' ..
  | method | function | interface =>
      refine (List.nodup_range' ..).append (List.nodup_range' ..) ?_
      intro i hlater hearlier
      have hfrom := (List.mem_range'_1.mp hlater).1
      have hto := (List.mem_range'_1.mp hearlier).2
      omega
  | reference name arguments text =>
      cases arguments with
      | nil => exact List.nodup_nil
      | cons argument rest =>
          cases rest with
          | nil =>
              rw [evaluatedPositions]
              split
              case isTrue => exact List.nodup_singleton 1
              case isFalse => exact List.nodup_nil
          | cons => exact List.nodup_nil
  | sourceFile fileName statements => exact (List.nodup_range' ..).filter _
  | array | «alias» | heritage | parenthesized => exact List.nodup_singleton _
  | _ => exact List.nodup_nil

/-! ## Places of evaluated nodes -/

/-- A way down a tree goes through evaluated fields only. -/
def Reaches (wrapper : String) (n : Node) : Place → Prop
  | [] => True
  | i :: inner =>
    i ∈ n.evaluatedPositions wrapper ∧ ∃ c, n.children[i]? = some c ∧ c.Reaches wrapper inner

/-- Each step of such a way goes into an evaluated field. -/
theorem Reaches.step {wrapper : String} {n m : Node} {above inner : Place} {i : Nat}
    (h : n.Reaches wrapper (above ++ i :: inner)) (hm : n.at? above = some m) :
    i ∈ m.evaluatedPositions wrapper := by
  induction above generalizing n with
  | nil =>
      obtain rfl := Option.some.inj hm
      exact h.1
  | cons j above ih =>
      obtain ⟨-, c, hc, hinner⟩ := h
      rw [at?, hc, Option.bind_some] at hm
      exact ih hinner hm

/-- Nodes that stand below some fields of a node, for each field in places of their own, stand in
places of their own below the node. -/
theorem exists_placed_below {wrapper : String} {n : Node} {below : Node → List Node}
    {positions : List Nat} {cs : List Node} (hdistinct : positions.Nodup)
    (hevaluated : ∀ i ∈ positions, i ∈ n.evaluatedPositions wrapper)
    (hfields : positions.map (n.children[·]?) = cs.map some)
    (h : ∀ c ∈ cs, ∃ places, c.Placed places (below c) ∧ ∀ place ∈ places, c.Reaches wrapper place) :
    ∃ places, n.Placed places (cs.flatMap below) ∧
      (∀ place ∈ places, n.Reaches wrapper place) ∧
      ∀ place ∈ places, ∃ i ∈ positions, ∃ inner, place = i :: inner := by
  induction cs generalizing positions with
  | nil => exact ⟨[], ⟨List.nodup_nil, rfl⟩, by simp, by simp⟩
  | cons c rest ih =>
      obtain ⟨i, others, rfl, hi, hothers⟩ := List.map_eq_cons_iff.mp hfields
      obtain ⟨hnew, hdistinct⟩ := List.nodup_cons.mp hdistinct
      obtain ⟨hfirst, hevaluated⟩ := List.forall_mem_cons.mp hevaluated
      obtain ⟨⟨inner, hinner, hdeeper⟩, hrest⟩ := List.forall_mem_cons.mp h
      obtain ⟨later, hlater, hways, hapart⟩ := ih hdistinct hevaluated hothers hrest
      have hat : (inner.map (i :: ·)).map n.at? = (below c).map some := by
        rw [← hinner.stand, List.map_map]
        exact List.map_congr_left fun place _ => by simp [at?, hi]
      refine ⟨inner.map (i :: ·) ++ later, ⟨?_, ?_⟩, ?_, ?_⟩
      · refine (hinner.distinct.map (List.cons_injective)).append hlater.distinct ?_
        -- What is below another field has another position in front.
        intro place hplace hother
        obtain ⟨_, -, rfl⟩ := List.mem_map.mp hplace
        obtain ⟨j, hj, _, hsame⟩ := hapart _ hother
        exact hnew ((List.cons.inj hsame).1 ▸ hj)
      · rw [List.map_append, hat, hlater.stand, List.flatMap_cons, List.map_append]
      · rw [List.forall_mem_append, List.forall_mem_map]
        exact ⟨fun place hplace => ⟨hfirst, c, hi, hdeeper place hplace⟩, hways⟩
      · rw [List.forall_mem_append, List.forall_mem_map]
        refine ⟨fun place _ => ⟨i, List.mem_cons_self, place, rfl⟩, fun place hplace => ?_⟩
        obtain ⟨j, hj, deeper⟩ := hapart place hplace
        exact ⟨j, List.mem_cons_of_mem _ hj, deeper⟩

/-- The evaluated nodes of a tree stand in places of their own, on ways down through evaluated
fields. -/
theorem evaluated_placed (wrapper : String) (n : Node) :
    ∃ places, n.Placed places (n.evaluated wrapper) ∧ ∀ place ∈ places, n.Reaches wrapper place := by
  induction n using children_induction with
  | h n ih =>
      obtain ⟨places, hplaces, hways, hapart⟩ := exists_placed_below
        (nodup_evaluated_positions wrapper n) (fun _ => id) (map_evaluated_positions wrapper n)
        fun c hc => ih c (child_of_evaluated_field hc)
      refine ⟨[] :: places, ⟨List.nodup_cons.mpr ⟨fun hroot => ?_, hplaces.distinct⟩, ?_⟩,
        List.forall_mem_cons.mpr ⟨trivial, hways⟩⟩
      · obtain ⟨i, -, inner, hsame⟩ := hapart [] hroot
        cases hsame
      · rw [evaluated_eq, List.map_cons, List.map_cons, hplaces.stand, at?]

/-! ## Declared names -/

/-- The node in the name field of a node that declares a name. -/
def nameField? : Node → Option Node
  | .parameter name _ _ _ => some name
  | .property name _ _ _ => some name
  | .method name _ _ _ => some name
  | .interface name _ _ _ => some name
  | .alias name _ _ => some name
  | _ => none

/-- The names that are declared by the evaluated nodes of a node, in the order of compilation. -/
def declaredNames (wrapper : String) (n : Node) : List Node :=
  (n.evaluated wrapper).filterMap nameField?

/-- A node declares its own name before those below it. -/
theorem declared_names_eq (wrapper : String) (n : Node) :
    n.declaredNames wrapper =
      n.nameField?.toList ++ (n.evaluatedFields wrapper).flatMap (declaredNames wrapper) := by
  rw [declaredNames, evaluated_eq, List.filterMap_cons, List.filterMap_flatMap]
  cases n.nameField? <;> rfl

/-- The name of a node is its first field. -/
theorem name_field_eq {n name : Node} (h : n.nameField? = some name) :
    n.children[0]? = some name := by
  cases n <;> first | exact h | cases h

/-- A node that declares a name is no reference and no base type. -/
theorem kind_of_name_field {n : Node} (h : n.nameField?.isSome = true) :
    n.kind ≠ .reference ∧ n.kind ≠ .heritage := by
  cases n <;> simp_all [nameField?, kind]

/-- The name that the node in a place of a tree declares. -/
def nameAt? (n : Node) (place : Place) : Option Node :=
  (n.at? place).bind nameField?

/-- The places of the names that the nodes in some places declare. -/
def namePlaces (n : Node) (places : List Place) : List Place :=
  (places.filter fun place => (n.nameAt? place).isSome).map (· ++ [0])

/-- A name stands one step further down than the node that declares it. -/
theorem at_name_place {n : Node} {above : Place} (h : (n.nameAt? above).isSome = true) :
    n.at? (above ++ [0]) = n.nameAt? above := by
  obtain ⟨name, hname⟩ := Option.isSome_iff_exists.mp h
  obtain ⟨parent, hparent, hfield⟩ := Option.bind_eq_some_iff.mp hname
  rw [hname, at_append, hparent, Option.bind_some, at?, name_field_eq hfield]
  rfl

/-- The names that nodes in places declare stand in places of their own. -/
theorem Placed.names {n : Node} {places : List Place} {ns : List Node} (h : n.Placed places ns) :
    n.Placed (n.namePlaces places) (ns.filterMap nameField?) where
  distinct := (h.distinct.filter _).map (List.append_left_injective [0])
  stand := calc
    (n.namePlaces places).map n.at? =
        (places.filter fun place => (n.nameAt? place).isSome).map n.nameAt? := by
      rw [namePlaces, List.map_map]
      exact List.map_congr_left fun place hplace => at_name_place (List.mem_filter.mp hplace).2
    _ = (places.filterMap n.nameAt?).map some := by
      rw [List.map_filterMap_some_eq_filter_map_isSome, List.filter_map]
      rfl
    _ = (((places.map n.at?).filterMap (·.bind nameField?))).map some := by
      rw [List.filterMap_map]
      rfl
    _ = (ns.filterMap nameField?).map some := by
      rw [h.stand, List.filterMap_map]
      rfl

/-- The place of a name is that of the name field of one of the nodes that stand in places. -/
theorem Placed.exists_parent {n : Node} {places : List Place} {ns : List Node}
    (h : n.Placed places ns) {place : Place} (hplace : place ∈ n.namePlaces places) :
    ∃ above ∈ places, place = above ++ [0] ∧ ∃ parent ∈ ns, n.at? above = some parent ∧
      parent.nameField?.isSome = true ∧ parent.nameField? = n.at? place := by
  obtain ⟨above, hfiltered, rfl⟩ := List.mem_map.mp hplace
  obtain ⟨habove, hdeclares⟩ := List.mem_filter.mp hfiltered
  obtain ⟨parent, hparent, hat⟩ := h.exists_at habove
  have hname : n.nameAt? above = parent.nameField? := by rw [nameAt?, hat, Option.bind_some]
  exact ⟨above, habove, rfl, parent, hparent, hat, hname ▸ hdeclares,
    hname.symm.trans (at_name_place hdeclares).symm⟩

/-- Of a reference only an argument is evaluated, and of a base type only its expression. -/
theorem position_of_kind {wrapper : String} {n : Node} {i : Nat}
    (h : i ∈ n.evaluatedPositions wrapper) :
    (n.kind = .reference → i ≠ 0) ∧ (n.kind = .heritage → i = 0) := by
  cases n with
  | reference name arguments text =>
      obtain rfl : i = 1 := by
        unfold evaluatedPositions at h
        split at h <;> simp_all
      simp [kind]
  | heritage expression arguments text =>
      obtain rfl : i = 0 := List.mem_singleton.mp h
      simp [kind]
  | _ => simp [kind]

/-- The way to a declared name, through evaluated fields down to the node that declares it, never
goes into the name of a reference or into an argument of a base type, and it does not end at the
expression of a base type. -/
theorem Reaches.avoids {wrapper : String} {n parent m : Node} {outer above inner : Place} {i : Nat}
    (h : n.Reaches wrapper outer) (hparent : n.at? outer = some parent)
    (hdeclares : parent.nameField?.isSome = true) (hway : outer ++ [0] = above ++ i :: inner)
    (hm : n.at? above = some m) :
    (m.kind = .reference → i ≠ 0) ∧ (m.kind = .heritage → i = 0 ∧ inner ≠ []) := by
  obtain rfl | ⟨inside, last, rfl⟩ := inner.eq_nil_or_concat
  · obtain ⟨rfl, -⟩ := List.append_inj' hway rfl
    obtain rfl : parent = m := Option.some.inj (hparent.symm.trans hm)
    obtain ⟨hreference, hbase⟩ := kind_of_name_field hdeclares
    exact ⟨fun hkind => absurd hkind hreference, fun hkind => absurd hkind hbase⟩
  · rw [List.concat_eq_append, ← List.cons_append, ← List.append_assoc] at hway
    obtain ⟨rfl, -⟩ := List.append_inj' hway rfl
    obtain ⟨hreference, hbase⟩ := position_of_kind (h.step hm)
    exact ⟨hreference, fun hkind => ⟨hbase hkind, by simp⟩⟩

end TypeSuite.Node
