import Mathlib.Data.Option.Defs
import TypeSuite.Proofs.Tree.Unions

/-!
# Meanings of trees

Which node a tree stands for depends on the position that it is in. `Stands` says so for each kind
of syntax by the parts of the tree, and without the lowering. `meaning_stands` says that the
lowering gives a tree such a node in every position, if the tree is complete. Syntax that has no
meaning in its position stands for itself there, as an unknown node of its kind and text.
-/

namespace TypeSuite

/-- Where a tree stands in a declaration file. -/
inductive Position where
  | statement
  /-- As an entry of an extends clause. -/
  | base
  | member
  | parameter
  /-- As the annotation of a member, a parameter or a result. -/
  | annotated
  | type
  /-- As the name of a declaration or a member. -/
  | name
  /-- As what names a parameter. -/
  | binder
deriving DecidableEq, Repr

namespace Tree

/-- Whether a token of fixed spelling is among the children. -/
def hasToken (t : Tree) (token : String) : Bool :=
  t.children.any fun c => !c.head.named && c.head.kind == token

/-- The entries of the extends clauses of an interface. -/
def bases (t : Tree) : List Tree :=
  (t.items.filter (Lowering.isExtendsClause ·.head.kind)).flatMap items

/-- The body of an interface. -/
def body? (t : Tree) : Option Tree :=
  (t.field? "body").or (t.items.find? (Lowering.isBody ·.head.kind))

/-- The members of an interface. One without a body has none. -/
def members (t : Tree) : List Tree :=
  t.body?.elim [] items

/-- What names a parameter. A rest parameter goes by the name inside of its pattern. -/
def binder? (t : Tree) : Option Tree :=
  (t.field? "pattern").bind fun c =>
    if c.head.kind == "rest_pattern" then c.items.head? else some c

end Tree

/-- The kinds of syntax that are names as they are written. -/
def identifierKinds : List String :=
  ["identifier", "property_identifier", "type_identifier", "private_property_identifier",
    "shorthand_property_identifier"]

/-- The kinds of syntax that refer to a type by a name without arguments. -/
def referenceKinds : List String :=
  ["type_identifier", "nested_type_identifier", "identifier"]

namespace Position

/-- Whether syntax over a text has a meaning in a position. -/
def recognises (position : Position) (text : String) (t : Tree) : Bool :=
  let kind := t.head.kind
  match position with
  | .statement =>
    kind == "interface_declaration" || kind == "type_alias_declaration" ||
      (kind == "export_statement" && (t.field? "declaration").isSome) ||
      (kind == "ambient_declaration" && t.items.length == 1)
  | .base => true
  | .member => kind == "property_signature" || kind == "method_signature"
  | .parameter => kind == "required_parameter" || kind == "optional_parameter"
  | .annotated => kind == "type_annotation" && !t.items.isEmpty
  | .type =>
    (referenceKinds ++ ["generic_type", "this_type", "literal_type", "parenthesized_type",
      "array_type", "tuple_type", "union_type", "object_type", "function_type"]).contains kind ||
      (kind == "predefined_type" && (Keyword.ofName? text).isSome)
  | .name =>
    (identifierKinds ++ ["string", "number", "computed_property_name"]).contains kind
  | .binder =>
    kind == "this" ||
      (identifierKinds ++ ["string", "number", "computed_property_name"]).contains kind

end Position

/-- What a tree in a field stands for, if the field is filled; else the node is one for a name that
is missing. -/
inductive OrMissing (stands : Tree → Node → Prop) : Option Tree → Node → Prop where
  | missing : OrMissing stands none (.unknown "missing_name" "")
  | present {t : Tree} {n : Node} : stands t n → OrMissing stands (some t) n

/-- A tree stands for a node in a position. -/
inductive Stands (source : ByteArray) : Position → Tree → Node → Prop where
  | unknown {position : Position} {t : Tree} {text : String} :
      t.head.Covers source text → position.recognises text t = false →
      Stands source position t (.unknown t.head.kind text)
  | exported {t inner : Tree} {n : Node} :
      t.head.kind = "export_statement" → t.field? "declaration" = some inner →
      Stands source .statement inner n → Stands source .statement t n
  | ambient {t inner : Tree} {n : Node} :
      t.head.kind = "ambient_declaration" → t.items = [inner] →
      Stands source .statement inner n → Stands source .statement t n
  | interface {t : Tree} {name : Node} {bases members : List Node} {text : String} :
      t.head.kind = "interface_declaration" → t.head.Covers source text →
      OrMissing (Stands source .name) (t.field? "name") name →
      List.Forall₂ (Stands source .base) t.bases bases →
      List.Forall₂ (Stands source .member) t.members members →
      Stands source .statement t (.interface name bases members text)
  | typeAlias {t value : Tree} {name type : Node} {text : String} :
      t.head.kind = "type_alias_declaration" → t.head.Covers source text →
      OrMissing (Stands source .name) (t.field? "name") name →
      t.field? "value" = some value → Stands source .type value type →
      Stands source .statement t (.alias name type text)
  | base {t : Tree} {text : String} :
      t.head.kind ≠ "generic_type" → t.head.Covers source text →
      Stands source .base t (.heritage (.identifier text) [] text)
  | genericBase {t named : Tree} {name : String} {arguments : List Node} {text : String} :
      t.head.kind = "generic_type" → t.head.Covers source text →
      t.field? "name" = some named → named.head.Covers source name →
      List.Forall₂ (Stands source .type) (t.itemsIn "type_arguments") arguments →
      Stands source .base t (.heritage (.identifier name) arguments text)
  | property {t : Tree} {name : Node} {type : Option Node} {text : String} :
      t.head.kind = "property_signature" → t.head.Covers source text →
      OrMissing (Stands source .name) (t.field? "name") name →
      Option.Rel (Stands source .annotated) (t.field? "type") type →
      Stands source .member t (.property name type (t.hasToken "?") text)
  | method {t : Tree} {name : Node} {parameters : List Node} {type : Option Node}
      {text : String} :
      t.head.kind = "method_signature" → t.head.Covers source text →
      OrMissing (Stands source .name) (t.field? "name") name →
      List.Forall₂ (Stands source .parameter) (t.itemsIn "parameters") parameters →
      Option.Rel (Stands source .annotated) (t.field? "return_type") type →
      Stands source .member t (.method name parameters type text)
  | parameter {t : Tree} {name : Node} {type : Option Node} {text : String} :
      t.head.kind = "required_parameter" ∨ t.head.kind = "optional_parameter" →
      t.head.Covers source text →
      OrMissing (Stands source .binder) t.binder? name →
      Option.Rel (Stands source .annotated) (t.field? "type") type →
      Stands source .parameter t
        (.parameter name type (t.head.kind == "optional_parameter") text)
  | annotated {t first : Tree} {rest : List Tree} {n : Node} :
      t.head.kind = "type_annotation" → t.items = first :: rest →
      Stands source .type first n → Stands source .annotated t n
  | reference {t : Tree} {text : String} :
      t.head.kind ∈ referenceKinds → t.head.Covers source text →
      Stands source .type t (.reference (.identifier text) [] text)
  | generic {t named : Tree} {name : String} {arguments : List Node} {text : String} :
      t.head.kind = "generic_type" → t.head.Covers source text →
      t.field? "name" = some named → named.head.Covers source name →
      List.Forall₂ (Stands source .type) (t.itemsIn "type_arguments") arguments →
      Stands source .type t (.reference (.identifier name) arguments text)
  | keyword {t : Tree} {keyword : Keyword} {text : String} :
      t.head.kind = "predefined_type" ∨ t.head.kind = "literal_type" →
      t.head.Covers source text → Keyword.ofName? text = some keyword →
      Stands source .type t (.keyword keyword text)
  | this {t : Tree} {text : String} :
      t.head.kind = "this_type" → t.head.Covers source text →
      Stands source .type t (.keyword .this text)
  | literal {t : Tree} {text : String} :
      t.head.kind = "literal_type" → t.head.Covers source text → Keyword.ofName? text = none →
      Stands source .type t (.literal text)
  | parenthesized {t first : Tree} {rest : List Tree} {type : Node} {text : String} :
      t.head.kind = "parenthesized_type" → t.head.Covers source text → t.items = first :: rest →
      Stands source .type first type → Stands source .type t (.parenthesized type text)
  | array {t first : Tree} {rest : List Tree} {element : Node} {text : String} :
      t.head.kind = "array_type" → t.head.Covers source text → t.items = first :: rest →
      Stands source .type first element → Stands source .type t (.array element text)
  | tuple {t : Tree} {elements : List Node} {text : String} :
      t.head.kind = "tuple_type" → t.head.Covers source text →
      List.Forall₂ (Stands source .type) t.items elements →
      Stands source .type t (.tuple elements text)
  | union {t : Tree} {types : List Node} {text : String} :
      t.head.kind = "union_type" → t.head.Covers source text →
      List.Forall₂ (Stands source .type) (t.operands.map Prod.snd) types →
      Stands source .type t (.union types text)
  | typeLiteral {t : Tree} {members : List Node} {text : String} :
      t.head.kind = "object_type" → t.head.Covers source text →
      List.Forall₂ (Stands source .member) t.items members →
      Stands source .type t (.typeLiteral members text)
  | function {t : Tree} {parameters : List Node} {type : Option Node} {text : String} :
      t.head.kind = "function_type" → t.head.Covers source text →
      List.Forall₂ (Stands source .parameter) (t.itemsIn "parameters") parameters →
      Option.Rel (Stands source .type) (t.field? "return_type") type →
      Stands source .type t (.function parameters type text)
  | identifier {t : Tree} {text : String} :
      t.head.kind ∈ identifierKinds → t.head.Covers source text →
      Stands source .name t (.identifier text)
  | stringLiteral {t : Tree} {text : String} :
      t.head.kind = "string" → t.head.Covers source text →
      Stands source .name t (.stringLiteral text)
  | numericLiteral {t : Tree} {text : String} :
      t.head.kind = "number" → t.head.Covers source text →
      Stands source .name t (.numericLiteral text)
  | computedName {t : Tree} {text : String} :
      t.head.kind = "computed_property_name" → t.head.Covers source text →
      Stands source .name t (.computedName text)
  | thisBinder {t : Tree} :
      t.head.kind = "this" → Stands source .binder t (.identifier "this")
  | binder {t : Tree} {n : Node} :
      t.head.kind ≠ "this" → Stands source .name t n → Stands source .binder t n

/-- A tree that covers a text covers no other one. -/
theorem Head.Covers.unique {source : ByteArray} {head : Head} {text other : String}
    (h : head.Covers source text) (hother : head.Covers source other) : other = text :=
  Option.some.inj (hother.symm.trans h)

/-- In a position that does not recognise it, a tree stands for an unknown node of its kind and
text. -/
theorem Stands.of_unrecognised {source : ByteArray} {position : Position} {t : Tree} {n : Node}
    {text : String} (h : Stands source position t n) (htext : t.head.Covers source text)
    (hother : position.recognises text t = false) : n = .unknown t.head.kind text := by
  cases h with
  | unknown hcovers => rw [htext.unique hcovers]
  | keyword hkind hcovers hkeyword =>
      obtain rfl := htext.unique hcovers
      simp_all [Position.recognises]
  | binder hthis hname =>
      cases hname with
      | unknown hcovers => rw [htext.unique hcovers]
      | _ => simp_all [Position.recognises]
  | _ => simp_all [Position.recognises]

/-! ## What stands below a tree -/

namespace Tree

variable {t c : Tree}

/-- The children that carry meaning stand below their parent. -/
theorem below_of_items (h : c ∈ t.items) : c.OccursBelow t :=
  ⟨c, (List.mem_filter.mp h).1, .here⟩

/-- What fills a field stands below its parent. -/
theorem below_of_field {field : String} (h : t.field? field = some c) : c.OccursBelow t :=
  ⟨c, List.mem_of_find?_eq_some h, .here⟩

/-- What carries meaning in the child that fills a field stands below the parent. -/
theorem below_of_items_in {field : String} (h : c ∈ t.itemsIn field) : c.OccursBelow t := by
  unfold itemsIn at h
  cases hfield : t.field? field with
  | none =>
      rw [hfield] at h
      cases h
  | some inner =>
      rw [hfield] at h
      exact (below_of_items h).trans (below_of_field hfield)

/-- The entries of the extends clauses stand below their interface. -/
theorem below_of_bases (h : c ∈ t.bases) : c.OccursBelow t := by
  obtain ⟨clause, hclause, hc⟩ := List.mem_flatMap.mp h
  exact (below_of_items hc).trans (below_of_items (List.mem_filter.mp hclause).1)

/-- The body of an interface stands below it. -/
theorem below_of_body (h : t.body? = some c) : c.OccursBelow t := by
  obtain hfield | ⟨-, hfound⟩ := Option.or_eq_some_iff.mp h
  · exact below_of_field hfield
  · exact below_of_items (List.mem_of_find?_eq_some hfound)

/-- The members of an interface stand below it. -/
theorem below_of_members (h : c ∈ t.members) : c.OccursBelow t := by
  unfold members at h
  cases hbody : t.body? with
  | none =>
      rw [hbody] at h
      cases h
  | some body =>
      rw [hbody] at h
      exact (below_of_items h).trans (below_of_body hbody)

/-- What names a parameter stands below it. -/
theorem below_of_binder (h : t.binder? = some c) : c.OccursBelow t := by
  obtain ⟨pattern, hpattern, h⟩ := Option.bind_eq_some_iff.mp h
  split at h
  case isTrue =>
    exact (below_of_items (List.mem_of_mem_head? h)).trans (below_of_field hpattern)
  case isFalse => exact Option.some.inj h ▸ below_of_field hpattern

/-- The operands of a union stand below it. -/
theorem HasOperand.occurs_below {position : List Nat} (h : t.HasOperand position c)
    (hunion : t.isUnion = true) : c.OccursBelow t := by
  cases h with
  | self hother => cases hunion.symm.trans hother
  | inside _ hchild hitem hinner =>
      have hmem := List.mem_of_getElem? hchild
      refine ⟨_, hmem, ?_⟩
      clear hchild hitem hmem hunion
      induction hinner with
      | self => exact .here
      | inside _ hchild _ _ ih => exact .inside (List.mem_of_getElem? hchild) ih

/-- The operands of a union stand below it. -/
theorem below_of_operands (hunion : t.head.kind = "union_type")
    (h : c ∈ t.operands.map Prod.snd) : c.OccursBelow t := by
  obtain ⟨⟨position, _⟩, hmem, rfl⟩ := List.mem_map.mp h
  exact (mem_operands_iff.mp hmem).occurs_below (beq_iff_eq.mpr hunion)

end Tree

namespace Lowering

/-- What a tree means in a position. -/
def meaning (source : ByteArray) (position : Position) (t : Tree) : Lowered Node :=
  match position with
  | .statement => (read source t).statement
  | .base => (read source t).base
  | .member => (read source t).member
  | .parameter => (read source t).parameter
  | .annotated => (read source t).annotated
  | .type => (read source t).type
  | .name => nameOf source (some t.head)
  | .binder =>
    if t.head.kind == "this" then .ok (.identifier "this") else nameOf source (some t.head)

variable {source : ByteArray} {complete : Prop} {t : Tree}

section

variable (hhead : complete → t.head.IsReadable source)

include hhead

/-- What a position does not recognise becomes an unknown node. -/
theorem unknown_stands {position : Position}
    (hother : ∀ text, position.recognises text t = false) :
    (unknown source t.head).Meets complete (Stands source position t) := by
  refine Lowered.meets_bind (text_of_meets hhead) fun text htext => ?_
  exact Lowered.meets_pure (.unknown htext (hother text))

/-- A name means what it stands for. -/
theorem name_stands : (meaning source .name t).Meets complete (Stands source .name t) := by
  refine Lowered.meets_bind (text_of_meets hhead) fun text htext => ?_
  split
  case h_1 hkind | h_2 hkind | h_3 hkind | h_4 hkind | h_5 hkind =>
    exact Lowered.meets_pure (.identifier (by rw [hkind]; decide) htext)
  case h_6 hkind => exact Lowered.meets_pure (.stringLiteral hkind htext)
  case h_7 hkind => exact Lowered.meets_pure (.numericLiteral hkind htext)
  case h_8 hkind => exact Lowered.meets_pure (.computedName hkind htext)
  case h_9 =>
    have hother : Position.name.recognises text t = false := by
      simp_all [Position.recognises, identifierKinds]
    exact Lowered.meets_pure (.unknown htext hother)

/-- What names a parameter means what it stands for. -/
theorem binder_stands : (meaning source .binder t).Meets complete (Stands source .binder t) := by
  simp only [meaning]
  split
  case isTrue hthis => exact .thisBinder (beq_iff_eq.mp hthis)
  case isFalse hthis =>
    exact (name_stands hhead).imp fun n hn => .binder (fun hkind => hthis (beq_iff_eq.mpr hkind)) hn

end

section

variable (hbelow : ∀ u, u.OccursBelow t → ∀ position,
  (meaning source position u).Meets complete (Stands source position u))

include hbelow

/-! ## Pieces of a tree -/

/-- The name in a field means what it stands for, or it is missing. -/
theorem field_name_stands (field : String) :
    (nameOf source ((Child.inField? field (readAll source t.children)).map (·.head))).Meets complete
      (OrMissing (Stands source .name) (t.field? field)) := by
  rw [in_field_read_all]
  cases hfield : t.field? field with
  | none => exact .missing
  | some c => exact (hbelow c (Tree.below_of_field hfield) .name).imp fun n hn => .present hn

/-- The name of a parameter means what it stands for, or it is missing. -/
theorem parameter_name_stands :
    (parameterNameOf source (Child.inField? "pattern" (readAll source t.children))).Meets complete
      (OrMissing (Stands source .binder) t.binder?) := by
  have hroot : ((Child.inField? "pattern" (readAll source t.children)).bind fun c =>
      if c.head.kind == "rest_pattern" then c.reading.firstItem else some c.head) =
      t.binder?.map Tree.head := by
    rw [in_field_read_all, Tree.binder?]
    cases t.field? "pattern" with
    | none => rfl
    | some c =>
        have hfirst : (read source c).firstItem = c.items.head?.map Tree.head := by
          rw [read_eq]
          show ((Child.items (readAll source c.children)).head?).map _ = _
          rw [items_read_all, List.head?_map, Option.map_map]
          rfl
        simp only [Option.map_some, Option.bind_some, hfirst]
        split <;> rfl
  unfold parameterNameOf
  simp only [hroot]
  cases hbinder : t.binder? with
  | none => exact .missing
  | some c => exact (hbelow c (Tree.below_of_binder hbinder) .binder).imp fun n hn => .present hn

/-- The annotation in a field means what it stands for. -/
theorem annotated_in_stands (field : String) :
    (annotatedIn field (readAll source t.children)).Meets complete
      (Option.Rel (Stands source .annotated) (t.field? field)) := by
  rw [annotatedIn, in_field_read_all]
  cases hfield : t.field? field with
  | none => exact .none
  | some c =>
      have hannotation := hbelow c (Tree.below_of_field hfield) .annotated
      exact Lowered.meets_bind hannotation fun n hn => .some hn

/-- Children mean what they stand for one by one. -/
theorem items_stand (position : Position) {ts : List Tree} (hts : ∀ c ∈ ts, c.OccursBelow t) :
    (ts.mapM (meaning source position)).Meets complete
      (List.Forall₂ (Stands source position) ts) :=
  Lowered.meets_forall₂ fun c hc => hbelow c (hts c hc) position

/-- Parameters mean what they stand for. -/
theorem parameters_in_stand :
    (parametersIn (readAll source t.children)).Meets complete
      (List.Forall₂ (Stands source .parameter) (t.itemsIn "parameters")) := by
  have hsame : parametersIn (readAll source t.children) =
      (t.itemsIn "parameters").mapM (meaning source .parameter) := by
    rw [parametersIn, in_field_read_all, Tree.itemsIn]
    cases t.field? "parameters" with
    | none => rfl
    | some c =>
        dsimp only [Option.map_some]
        rw [read_eq source c]
        exact items_map_m source c (·.parameter)
  rw [hsame]
  exact items_stand hbelow .parameter fun c => Tree.below_of_items_in

/-- Type arguments mean what they stand for. -/
theorem arguments_in_stand :
    (argumentsIn (readAll source t.children)).Meets complete
      (List.Forall₂ (Stands source .type) (t.itemsIn "type_arguments")) := by
  rw [arguments_in_read_all]
  exact items_stand hbelow .type fun c => Tree.below_of_items_in

/-- The entries of extends clauses mean what they stand for. -/
theorem clauses_stand :
    Lowered.Meets complete
      (((Child.items (readAll source t.children)).filter fun c =>
        isExtendsClause c.head.kind).mapM fun c => c.reading.bases)
      fun lists => List.Forall₂ (Stands source .base) t.bases lists.flatten := by
  have hclause : ∀ c ∈ t.items.filter (isExtendsClause ·.head.kind),
      (read source c).bases.Meets complete (List.Forall₂ (Stands source .base) c.items) := by
    intro c hc
    have hitem := Tree.below_of_items (List.mem_filter.mp hc).1
    have hlist : (read source c).bases = c.items.mapM (meaning source .base) := by
      rw [read_eq]
      exact items_map_m source c (·.base)
    rw [hlist]
    exact items_stand hbelow .base fun inner hinner => (Tree.below_of_items hinner).trans hitem
  rw [items_read_all, List.filter_map, List.mapM_map]
  refine (Lowered.meets_forall₂ hclause).imp fun lists hlists => ?_
  exact List.rel_flatten (List.forall₂_map_left_iff.mpr hlists)

/-- The members of an interface mean what they stand for. -/
theorem members_stand {body : Tree} (hbody : t.body? = some body) :
    (read source body).members.Meets complete
      (List.Forall₂ (Stands source .member) t.members) := by
  have hmembers : t.members = body.items := by rw [Tree.members, hbody, Option.elim_some]
  have hread : (read source body).members = body.items.mapM (meaning source .member) := by
    rw [read_eq]
    exact items_map_m source body (·.member)
  rw [hread, hmembers]
  exact items_stand hbelow .member fun c hc =>
    (Tree.below_of_items hc).trans (Tree.below_of_body hbody)

/-- The type of the first child that carries meaning means what it stands for. -/
theorem first_type_stands (hitem : complete → t.items ≠ []) :
    (firstType (readAll source t.children)).Meets complete fun n =>
      ∃ first rest, t.items = first :: rest ∧ Stands source .type first n := by
  rw [firstType, items_read_all]
  cases hitems : t.items with
  | nil => exact fun hcomplete => hitem hcomplete hitems
  | cons first rest =>
      have hfirst : first ∈ t.items := hitems ▸ List.mem_cons_self
      exact (hbelow first (Tree.below_of_items hfirst) .type).imp fun n hn => ⟨first, rest, rfl, hn⟩

omit hbelow in
/-- A required child is the one that fills the field. -/
theorem required_meets {field : String} (hfield : complete → (t.field? field).isSome = true) :
    (required (Child.inField? field (readAll source t.children))).Meets complete fun c =>
      ∃ inner, t.field? field = some inner ∧ c = ⟨inner.head, read source inner⟩ := by
  rw [in_field_read_all]
  cases hfound : t.field? field with
  | none =>
      intro hcomplete
      rw [hfound] at hfield
      cases hfield hcomplete
  | some inner => exact ⟨inner, rfl, rfl⟩

variable (hhead : complete → t.head.IsReadable source)

include hhead

/-! ## Positions -/

/-- An interface declaration means what it stands for. -/
theorem interface_stands (hkind : t.head.kind = "interface_declaration") :
    (interfaceOf source t.head (readAll source t.children)).Meets complete
      (Stands source .statement t) := by
  have hbody : body? (readAll source t.children) =
      t.body?.map fun c => ⟨c.head, read source c⟩ := by
    rw [body?, in_field_read_all, items_read_all, List.find?_map, Tree.body?, Option.map_or]
    rfl
  refine Lowered.meets_bind (clauses_stand hbelow) fun bases hbases => ?_
  refine Lowered.meets_bind (field_name_stands hbelow "name") fun name hname => ?_
  -- With and without a body, the text is read behind the members.
  have hrest : ∀ members, List.Forall₂ (Stands source .member) t.members members →
      (textOf source t.head >>= fun text =>
        (pure (.interface name bases.flatten members text) : Lowered Node)).Meets complete
        (Stands source .statement t) := by
    intro members hmembers
    refine Lowered.meets_bind (text_of_meets hhead) fun text htext => ?_
    exact Lowered.meets_pure (.interface hkind htext hname hbases hmembers)
  cases hfound : t.body? with
  | none =>
      have hnone : t.members = [] := by rw [Tree.members, hfound, Option.elim_none]
      simp only [hbody, hfound, Option.map_none, pure_bind]
      refine hrest [] ?_
      rw [hnone]
      exact .nil
  | some c =>
      simp only [hbody, hfound, Option.map_some]
      refine Lowered.meets_bind (members_stand hbelow hfound) fun members hmembers => ?_
      exact hrest members hmembers

/-- A type alias means what it stands for, if it has a value. -/
theorem alias_stands (hkind : t.head.kind = "type_alias_declaration")
    (hvalue : complete → (t.field? "value").isSome = true) :
    (aliasOf source t.head (readAll source t.children)).Meets complete
      (Stands source .statement t) := by
  refine Lowered.meets_bind (field_name_stands hbelow "name") fun name hname => ?_
  refine Lowered.meets_bind (required_meets hvalue) fun c hc => ?_
  obtain ⟨value, hfield, rfl⟩ := hc
  refine Lowered.meets_bind (hbelow value (Tree.below_of_field hfield) .type) fun type htype => ?_
  refine Lowered.meets_bind (text_of_meets hhead) fun text htext => ?_
  exact Lowered.meets_pure (.typeAlias hkind htext hname hfield htype)

/-- A statement means what it stands for, if an alias has a value. -/
theorem statement_stands (hvalue : complete → t.head.kind = "type_alias_declaration" →
      (t.field? "value").isSome = true) :
    (meaning source .statement t).Meets complete (Stands source .statement t) := by
  have hread : meaning source .statement t =
      statementOf source t.head (readAll source t.children) := by
    rw [meaning, read_eq]
    rfl
  rw [hread, statementOf]
  split
  case h_1 hkind =>
    rw [in_field_read_all]
    cases hfield : t.field? "declaration" with
    | none =>
        refine unknown_stands hhead fun text => ?_
        simp [Position.recognises, hkind, hfield]
    | some inner =>
        have hinner := hbelow inner (Tree.below_of_field hfield) .statement
        exact hinner.imp fun n hn => .exported hkind hfield hn
  case h_2 hkind =>
    rw [items_read_all]
    have hother : t.items.length ≠ 1 →
        (unknown source t.head).Meets complete (Stands source .statement t) := by
      intro hlength
      refine unknown_stands hhead fun text => ?_
      simp [Position.recognises, hkind, hlength]
    match hitems : t.items with
    | [] => exact hother (by simp [hitems])
    | [inner] =>
        have hmem : inner ∈ t.items := hitems ▸ List.mem_singleton_self inner
        have hinner := hbelow inner (Tree.below_of_items hmem) .statement
        exact hinner.imp fun n hn => .ambient hkind hitems hn
    | _ :: _ :: _ => exact hother (by simp [hitems])
  case h_3 hkind => exact interface_stands hbelow hhead hkind
  case h_4 hkind => exact alias_stands hbelow hhead hkind fun h => hvalue h hkind
  case h_5 =>
    refine unknown_stands hhead fun text => ?_
    simp_all [Position.recognises]

/-- An entry of an extends clause means what it stands for, if a generic one has a name. -/
theorem base_stands (hchildren : ∀ c ∈ t.children, complete → c.head.IsReadable source)
    (hname : complete → t.head.kind = "generic_type" → (t.field? "name").isSome = true) :
    (meaning source .base t).Meets complete (Stands source .base t) := by
  have hread : meaning source .base t = baseOf source t.head (readAll source t.children) := by
    rw [meaning, read_eq]
    rfl
  rw [hread, baseOf]
  split
  case isTrue hgeneric =>
    have hkind := beq_iff_eq.mp hgeneric
    refine Lowered.meets_bind (required_meets fun h => hname h hkind) fun c hc => ?_
    obtain ⟨named, hfield, rfl⟩ := hc
    have hnamed := hchildren named (List.mem_of_find?_eq_some hfield)
    refine Lowered.meets_bind (text_of_meets hnamed) fun name hcovers => ?_
    refine Lowered.meets_bind (arguments_in_stand hbelow) fun arguments harguments => ?_
    refine Lowered.meets_bind (text_of_meets hhead) fun text htext => ?_
    exact Lowered.meets_pure (.genericBase hkind htext hfield hcovers harguments)
  case isFalse hother =>
    refine Lowered.meets_bind (text_of_meets hhead) fun text htext => ?_
    exact Lowered.meets_pure (.base (fun hkind => hother (beq_iff_eq.mpr hkind)) htext)

/-- A member means what it stands for. -/
theorem member_stands : (meaning source .member t).Meets complete (Stands source .member t) := by
  have hread : meaning source .member t = memberOf source t.head (readAll source t.children) := by
    rw [meaning, read_eq]
    rfl
  have htoken : Child.hasToken "?" (readAll source t.children) = t.hasToken "?" := by
    rw [read_all_eq_map, Child.hasToken, List.any_map]
    rfl
  rw [hread, memberOf, htoken]
  split
  case h_1 hkind =>
    refine Lowered.meets_bind (field_name_stands hbelow "name") fun name hname => ?_
    refine Lowered.meets_bind (annotated_in_stands hbelow "type") fun type htype => ?_
    refine Lowered.meets_bind (text_of_meets hhead) fun text htext => ?_
    exact Lowered.meets_pure (.property hkind htext hname htype)
  case h_2 hkind =>
    refine Lowered.meets_bind (field_name_stands hbelow "name") fun name hname => ?_
    refine Lowered.meets_bind (parameters_in_stand hbelow) fun parameters hparameters => ?_
    refine Lowered.meets_bind (annotated_in_stands hbelow "return_type") fun type htype => ?_
    refine Lowered.meets_bind (text_of_meets hhead) fun text htext => ?_
    exact Lowered.meets_pure (.method hkind htext hname hparameters htype)
  case h_3 =>
    refine unknown_stands hhead fun text => ?_
    simp_all [Position.recognises]

/-- A parameter means what it stands for. -/
theorem parameter_stands :
    (meaning source .parameter t).Meets complete (Stands source .parameter t) := by
  have hread : meaning source .parameter t =
      parameterOf source t.head (readAll source t.children) := by
    rw [meaning, read_eq]
    rfl
  rw [hread, parameterOf]
  split
  case isTrue hkind =>
    rw [Bool.or_eq_true, beq_iff_eq, beq_iff_eq] at hkind
    refine Lowered.meets_bind (parameter_name_stands hbelow) fun name hname => ?_
    refine Lowered.meets_bind (annotated_in_stands hbelow "type") fun type htype => ?_
    refine Lowered.meets_bind (text_of_meets hhead) fun text htext => ?_
    exact Lowered.meets_pure (.parameter hkind htext hname htype)
  case isFalse hother => exact unknown_stands hhead fun text => Bool.eq_false_iff.mpr hother

/-- An annotation means what it stands for. -/
theorem annotated_stands :
    (meaning source .annotated t).Meets complete (Stands source .annotated t) := by
  have hread : meaning source .annotated t =
      annotatedOf source t.head (readAll source t.children) := by
    rw [meaning, read_eq]
    rfl
  rw [hread, annotatedOf, items_read_all]
  split
  case isTrue hkind =>
    rw [beq_iff_eq] at hkind
    cases hitems : t.items with
    | nil =>
        refine unknown_stands hhead fun text => ?_
        simp [Position.recognises, hitems]
    | cons first rest =>
        have hmem : first ∈ t.items := hitems ▸ List.mem_cons_self
        have hfirst := hbelow first (Tree.below_of_items hmem) .type
        exact hfirst.imp fun n hn => .annotated hkind hitems hn
  case isFalse hother =>
    refine unknown_stands hhead fun text => ?_
    simp_all [Position.recognises]

omit hbelow hhead in
/-- A keyword means what it stands for, and what is no keyword another type. -/
theorem keyword_or_stands {other : Node} {text : String}
    (hkind : t.head.kind = "predefined_type" ∨ t.head.kind = "literal_type")
    (htext : t.head.Covers source text)
    (hother : Keyword.ofName? text = none → Stands source .type t other) :
    Stands source .type t (keywordOr text other) := by
  unfold keywordOr
  split
  case h_1 keyword hkeyword => exact .keyword hkind htext hkeyword
  case h_2 hnone => exact hother hnone

/-- A type means what it stands for, if it has its parts. -/
theorem type_stands (hchildren : ∀ c ∈ t.children, complete → c.head.IsReadable source)
    (hname : complete → t.head.kind = "generic_type" → (t.field? "name").isSome = true)
    (hitem : complete → t.head.kind = "parenthesized_type" ∨ t.head.kind = "array_type" →
      t.items ≠ []) :
    (meaning source .type t).Meets complete (Stands source .type t) := by
  rw [meaning, read_type]
  refine Lowered.meets_bind (text_of_meets hhead) fun text htext => ?_
  split
  case h_1 hkind | h_2 hkind | h_3 hkind =>
    exact Lowered.meets_pure (.reference (by rw [hkind]; decide) htext)
  case h_4 hkind =>
    refine Lowered.meets_bind (required_meets fun h => hname h hkind) fun c hc => ?_
    obtain ⟨named, hfield, rfl⟩ := hc
    have hnamed := hchildren named (List.mem_of_find?_eq_some hfield)
    refine Lowered.meets_bind (text_of_meets hnamed) fun name hcovers => ?_
    refine Lowered.meets_bind (arguments_in_stand hbelow) fun arguments harguments => ?_
    exact Lowered.meets_pure (.generic hkind htext hfield hcovers harguments)
  case h_5 hkind =>
    refine Lowered.meets_pure (keyword_or_stands (.inl hkind) htext fun hnone => .unknown htext ?_)
    simp [Position.recognises, hkind, hnone, referenceKinds]
  case h_6 hkind => exact Lowered.meets_pure (.this hkind htext)
  case h_7 hkind =>
    exact Lowered.meets_pure
      (keyword_or_stands (.inr hkind) htext fun hnone => .literal hkind htext hnone)
  case h_8 hkind =>
    have hfirst := first_type_stands hbelow fun h => hitem h (.inl hkind)
    refine Lowered.meets_bind hfirst fun type htype => ?_
    obtain ⟨first, rest, hitems, htype⟩ := htype
    exact Lowered.meets_pure (.parenthesized hkind htext hitems htype)
  case h_9 hkind =>
    have hfirst := first_type_stands hbelow fun h => hitem h (.inr hkind)
    refine Lowered.meets_bind hfirst fun element helement => ?_
    obtain ⟨first, rest, hitems, helement⟩ := helement
    exact Lowered.meets_pure (.array hkind htext hitems helement)
  case h_10 hkind =>
    rw [items_map_m source t (·.type)]
    have helements := items_stand hbelow .type fun c => Tree.below_of_items (t := t)
    exact Lowered.meets_bind helements fun elements h => Lowered.meets_pure (.tuple hkind htext h)
  case h_11 hkind =>
    have htypes : Lowered.Meets complete ((unionOperands (readAll source t.children)).mapM id)
        (List.Forall₂ (Stands source .type) (t.operands.map Prod.snd)) := by
      rw [union_operands_read_all source (beq_iff_eq.mpr hkind), List.mapM_map]
      have hoperands := items_stand hbelow .type fun c => Tree.below_of_operands hkind
      rwa [List.mapM_map] at hoperands
    exact Lowered.meets_bind htypes fun types h => Lowered.meets_pure (.union hkind htext h)
  case h_12 hkind =>
    rw [items_map_m source t (·.member)]
    have hmembers := items_stand hbelow .member fun c => Tree.below_of_items (t := t)
    exact Lowered.meets_bind hmembers fun members h =>
      Lowered.meets_pure (.typeLiteral hkind htext h)
  case h_13 hkind =>
    refine Lowered.meets_bind (parameters_in_stand hbelow) fun parameters hparameters => ?_
    rw [in_field_read_all]
    cases hfield : t.field? "return_type" with
    | none =>
        exact Lowered.meets_pure (.function hkind htext hparameters (hfield ▸ .none))
    | some c =>
        have hresult : Lowered.Meets complete (some <$> (read source c).type)
            (Option.Rel (Stands source .type) (t.field? "return_type")) :=
          Lowered.meets_bind (f := fun n => pure (some n))
            (hbelow c (Tree.below_of_field hfield) .type) fun n hn => hfield ▸ .some hn
        exact Lowered.meets_bind hresult fun type htype =>
          Lowered.meets_pure (.function hkind htext hparameters htype)
  case h_14 =>
    have hother : Position.type.recognises text t = false := by
      simp_all [Position.recognises, referenceKinds]
    exact Lowered.meets_pure (.unknown htext hother)

end

/-- What a field is filled with if a child fills it. -/
theorem field_is_some {field : String} (h : ∃ c ∈ t.children, c.head.field = some field) :
    (t.field? field).isSome = true := by
  obtain ⟨c, hc, hfills⟩ := h
  exact List.find?_isSome.mpr ⟨c, hc, beq_iff_eq.mpr hfills⟩

/-- In every position a tree means what it stands for there, and it has a meaning if it is
complete. -/
theorem meaning_stands (source : ByteArray) (t : Tree) (position : Position) :
    (meaning source position t).Meets (t.IsComplete source) (Stands source position t) := by
  induction t using Tree.below_induction generalizing position with
  | h t ih =>
      have hhead : t.IsComplete source → t.head.IsReadable source := fun h => (h t .here).1
      have hparts : t.IsComplete source → t.HasParts := fun h => (h t .here).2
      have hbelow : ∀ u, u.OccursBelow t → ∀ position, (meaning source position u).Meets
          (t.IsComplete source) (Stands source position u) :=
        fun u hu position => (ih u hu position).under fun h => h.below hu
      have hchildren : ∀ c ∈ t.children, t.IsComplete source → c.head.IsReadable source :=
        fun c hc h => (h c (.inside hc .here)).1
      have hname : t.IsComplete source → t.head.kind = "generic_type" →
          (t.field? "name").isSome = true := fun h hkind => field_is_some ((hparts h).name hkind)
      cases position with
      | statement =>
          exact statement_stands hbelow hhead fun h hkind => field_is_some ((hparts h).value hkind)
      | base => exact base_stands hbelow hhead hchildren hname
      | member => exact member_stands hbelow hhead
      | parameter => exact parameter_stands hbelow hhead
      | annotated => exact annotated_stands hbelow hhead
      | type =>
          refine type_stands hbelow hhead hchildren hname fun h hkind => ?_
          obtain ⟨c, hc, hitem⟩ := (hparts h).item hkind
          exact List.ne_nil_of_mem (List.mem_filter.mpr ⟨hc, hitem⟩)
      | name => exact name_stands hhead
      | binder => exact binder_stands hhead

end Lowering

/-- A file that a tree stands for: its statements are what the children that carry meaning stand for
one by one, and its text is what the tree covers. -/
structure Tree.StandsFor (source : ByteArray) (fileName : String) (root : Tree) (f : SourceFile) :
    Prop where
  fileName : f.fileName = fileName
  statements : List.Forall₂ (Stands source .statement) root.items f.statements
  text : root.head.Covers source f.text

/-- A tree is lowered to the file that it stands for, and there is one if it is complete. -/
theorem Tree.lower_stands (source : ByteArray) (fileName : String) (root : Tree) :
    (root.lower source fileName).Meets (root.IsComplete source)
      (root.StandsFor source fileName) := by
  have hstatements : Lowered.Meets (root.IsComplete source)
      ((Child.items (Lowering.readAll source root.children)).mapM (·.reading.statement))
      (List.Forall₂ (Stands source .statement) root.items) := by
    rw [Lowering.items_map_m source root (·.statement)]
    refine Lowered.meets_forall₂ fun c hc => ?_
    exact (Lowering.meaning_stands source c .statement).under fun h =>
      h.below (Tree.below_of_items hc)
  refine Lowered.meets_bind hstatements fun statements hstands => ?_
  refine Lowered.meets_bind (Lowering.text_of_meets fun h => (h root .here).1) fun text htext => ?_
  exact Lowered.meets_pure ⟨rfl, hstands, htext⟩

end TypeSuite
