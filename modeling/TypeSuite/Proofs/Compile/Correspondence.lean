import TypeSuite.Proofs.Compile.Sorts
import TypeSuite.Proofs.Compile.Suite
import TypeSuite.Proofs.Node.Equality

/-!
# Nodes and their values

What a node compiles to has the form of the node, with the answers of the resolver as names.
`Gives settings n s v t` says so of the node `n` and the value `v`, for a resolver that is asked
from the memory `s` on and left with the memory `t`. `declarations_correspond` says that the
declarations of a file that is read from a tree are well sorted and correspond to its statements.
-/

namespace TypeSuite

open Validator (Fills)

variable {σ : Type}

/-- The name of a member in the source. -/
def Node.memberName? : Node → Option Node
  | .property name _ _ _ => some name
  | .method name _ _ _ => some name
  | _ => none

namespace CompileSettings

/-- The name that a node gets when the resolver is asked with a memory: its answer, or else the
fallback. -/
def nameOf (settings : CompileSettings σ) (n : Node) (memory : σ) : String :=
  ((settings.resolver n).run memory).1.getD settings.fallback

/-- The memory that the resolver is left with when it is asked for a node. -/
def memoryAfter (settings : CompileSettings σ) (n : Node) (memory : σ) : σ :=
  ((settings.resolver n).run memory).2

/-- Values of members have the names that the resolver gives to the members in the source, one for
each of them and in order. -/
def NamesAll (settings : CompileSettings σ) (members : List Node) (values : List Validator) :
    Prop :=
  ∃ names, Validator.memberNames? values = some names ∧
    List.Forall₂ (fun n a => ∃ name r, n.memberName? = some name ∧ a = settings.nameOf name r)
      members names

end CompileSettings

namespace Compile

mutual
/-- `Gives settings n s v t` says that the value `v` has the form of the node `n` and the names that
the resolver gives to the names in it, asked in turn from the memory `s` to the memory `t`. -/
inductive Gives (settings : CompileSettings σ) : Node → σ → Validator → σ → Prop where
  | identifier (text : String) (s : σ) : Gives settings (.identifier text) s (.ref text) s
  | keyword (k : Keyword) (text : String) (s : σ) :
      Gives settings (.keyword k text) s (.ref k.name) s
  | literal (text : String) (s : σ) : Gives settings (.literal text) s (.literal text) s
  | reference (name : Node) (text : String) (s : σ) :
      Gives settings (.reference name [] text) s (.ref name.text) s
  | wrapper {name argument : Node} {s t : σ} {v : Validator} (text : String) :
      name.text = settings.wrapper → Gives settings argument s v t →
      Gives settings (.reference name [argument] text) s v t
  | parenthesized {type : Node} {s t : σ} {v : Validator} (text : String) :
      Gives settings type s v t → Gives settings (.parenthesized type text) s v t
  | heritage {expression : Node} {s t : σ} {v : Validator} (arguments : List Node)
      (text : String) : Gives settings expression s v t →
      Gives settings (.heritage expression arguments text) s v t
  | array {element : Node} {s t : σ} {v : Validator} (text : String) :
      Gives settings element s v t → Gives settings (.array element text) s (.array v) t
  | tuple {elements : List Node} {s t : σ} {vs : List Validator} (text : String) :
      GivesAll settings elements s vs t → Gives settings (.tuple elements text) s (.tuple vs) t
  | union {types : List Node} {s t : σ} {vs : List Validator} (text : String) :
      GivesAll settings types s vs t → Gives settings (.union types text) s (.union vs) t
  | function {parameters : List Node} {type : Option Node} {s r t : σ} {result : Validator}
      {params : List Validator} (text : String) :
      GivesAnnotated settings type s result r → GivesAll settings parameters r params t →
      Gives settings (.function parameters type text) s (.func result params) t
  | parameter {name : Node} {type : Option Node} {s t : σ} {v : Validator} (optional : Bool)
      (text : String) :
      GivesAnnotated settings type (settings.memoryAfter name s) v t →
      Gives settings (.parameter name type optional text) s
        (.param (settings.nameOf name s) v optional) t
  | typeLiteral {members : List Node} {s t : σ} {ms : List Validator} (text : String) :
      GivesAll settings members s ms t → settings.NamesAll members ms →
      Gives settings (.typeLiteral members text) s (.iface [] ms) t
  -- The value of a property is marked if and only if the property is optional.
  | required {name : Node} {type : Option Node} {s t : σ} {v : Validator} (text : String) :
      GivesAnnotated settings type (settings.memoryAfter name s) v t → v.isOpt = false →
      Gives settings (.property name type false text) s (.member (settings.nameOf name s) v) t
  | optional {name : Node} {type : Option Node} {s t : σ} {v : Validator} (text : String) :
      GivesAnnotated settings type (settings.memoryAfter name s) v t → v.isOpt = false →
      Gives settings (.property name type true text) s
        (.member (settings.nameOf name s) (.opt v)) t
  | method {name : Node} {parameters : List Node} {type : Option Node} {s r t : σ}
      {result : Validator} {params : List Validator} (text : String) :
      GivesAnnotated settings type (settings.memoryAfter name s) result r →
      GivesAll settings parameters r params t →
      Gives settings (.method name parameters type text) s
        (.member (settings.nameOf name s) (.func result params)) t
  | interface {name : Node} {bases members : List Node} {s r t : σ} {bs ms : List Validator}
      (text : String) :
      GivesAll settings members (settings.memoryAfter name s) ms r → settings.NamesAll members ms →
      GivesAll settings bases r bs t →
      Gives settings (.interface name bases members text) s
        (.declaration (settings.nameOf name s) (.iface bs ms)) t
  | typeAlias {name type : Node} {s t : σ} {v : Validator} (text : String) :
      Gives settings type (settings.memoryAfter name s) v t →
      Gives settings (.alias name type text) s (.declaration (settings.nameOf name s) v) t

/-- Nodes and values correspond one by one, in order. -/
inductive GivesAll (settings : CompileSettings σ) :
    List Node → σ → List Validator → σ → Prop where
  | nil (s : σ) : GivesAll settings [] s [] s
  | cons {n : Node} {rest : List Node} {s r t : σ} {v : Validator} {vs : List Validator} :
      Gives settings n s v r → GivesAll settings rest r vs t →
      GivesAll settings (n :: rest) s (v :: vs) t

/-- An annotation corresponds to the value of its node, and an absent one admits everything. -/
inductive GivesAnnotated (settings : CompileSettings σ) :
    Option Node → σ → Validator → σ → Prop where
  | absent (s : σ) : GivesAnnotated settings none s .any s
  | present {n : Node} {s t : σ} {v : Validator} :
      Gives settings n s v t → GivesAnnotated settings (some n) s v t
end

open Step (run_bind_ok run_pure run_throw)

variable {settings : CompileSettings σ} {α β : Type} {s : σ}

/-- Members in their role give values with the names of the members in the source. -/
theorem GivesAll.names {members : List Node} {ms : List Validator} {t : σ}
    (h : GivesAll settings members s ms t) (hfits : ∀ n ∈ members, Node.Fits .member n) :
    settings.NamesAll members ms := by
  induction members generalizing s ms with
  | nil =>
      cases h
      exact ⟨[], rfl, .nil⟩
  | cons n rest ih =>
      cases h with
      | @cons _ _ _ r _ v vs hn hrest =>
          have hname : ∃ a, v.name? = some a ∧
              ∃ name r, n.memberName? = some name ∧ a = settings.nameOf name r := by
            cases hfits n List.mem_cons_self with
            | unknown => cases hn
            | property => cases hn <;> exact ⟨_, rfl, _, s, rfl, rfl⟩
            | method =>
                cases hn
                exact ⟨_, rfl, _, s, rfl, rfl⟩
          obtain ⟨a, ha, hfrom⟩ := hname
          obtain ⟨names, hnames, hall⟩ := ih hrest fun m hm => hfits m (List.mem_cons_of_mem _ hm)
          refine ⟨a :: names, ?_, .cons hfrom hall⟩
          rw [Validator.memberNames?, List.mapM_cons, ha]
          unfold Validator.memberNames? at hnames
          rw [hnames]
          rfl

/-! ## Runs from a memory -/

/-- Every run that starts with a memory and succeeds ends with a value and a memory in a
relation. -/
def Leads (s : σ) (x : Compile σ α) (holds : α → σ → Prop) : Prop :=
  ∀ p a q, p.session = s → x.run p = (.ok a, q) → holds a q.session

/-- A finished value leaves the memory as it is. -/
theorem leads_pure {a : α} {holds : α → σ → Prop} (h : holds a s) :
    Leads s (pure a : Compile σ α) holds := by
  intro p b q hp hrun
  rw [run_pure, Prod.mk.injEq, Except.ok.injEq] at hrun
  obtain ⟨rfl, rfl⟩ := hrun
  exact hp ▸ h

/-- A failure leads nowhere. -/
theorem leads_throw (e : CompileError) (holds : α → σ → Prop) :
    Leads s (throw e : Compile σ α) holds := by
  intro p b q _ hrun
  rw [run_throw] at hrun
  cases hrun

/-- A step hands its value and the memory to the step behind it. -/
theorem leads_bind {x : Compile σ α} {f : α → Compile σ β} {first : α → σ → Prop}
    {second : β → σ → Prop} (hx : Leads s x first)
    (hf : ∀ a r, first a r → Leads r (f a) second) : Leads s (x >>= f) second := by
  intro p b t hp hrun
  obtain ⟨a, q, hfirst, hsecond⟩ := run_bind_ok hrun
  exact hf a q.session (hx p a q hp hfirst) q b t rfl hsecond

/-- A name is the answer of the resolver, which is left with a further memory. -/
theorem leads_resolve_name {n : Node} {f : String → Compile σ β} {holds : β → σ → Prop}
    (hf : Leads (settings.memoryAfter n s) (f (settings.nameOf n s)) holds) :
    Leads s (resolveName settings n >>= f) holds := by
  intro p b t hp hrun
  obtain ⟨a, q, hname, hrest⟩ := run_bind_ok hrun
  obtain ⟨events, hanswer⟩ := run_resolve_name settings n p
  rw [hanswer, Prod.mk.injEq, Except.ok.injEq] at hname
  obtain ⟨rfl, rfl⟩ := hname
  subst hp
  exact hf _ b t rfl hrest

/-- An exported declaration is given back, and the resolver is not asked. -/
theorem leads_add_export {d : Declaration} {holds : Validator → σ → Prop}
    (h : holds d.toValidator s) : Leads s (addExport d) holds := by
  intro p v q hp hrun
  by_cases htaken : d.name ∈ p.exports.names
  · rw [run_add_export_taken htaken] at hrun
    cases hrun
  · obtain ⟨exports, -, hadd⟩ := run_add_export_fresh htaken
    rw [hadd, Prod.mk.injEq, Except.ok.injEq] at hrun
    obtain ⟨rfl, rfl⟩ := hrun
    exact hp ▸ h

/-- What holds of every value of a computation holds of those that it leads to. -/
theorem Leads.and {x : Compile σ α} {holds : α → σ → Prop} {always : α → Prop}
    (h : Leads s x holds) (halways : Yields x always) :
    Leads s x fun a t => holds a t ∧ always a :=
  fun p a q hp hrun => ⟨h p a q hp hrun, halways p a q hrun⟩

/-! ## Runs of nodes -/

/-- Nodes lead to values that correspond to them when each of them does. -/
theorem nodes_give {ns : List Node}
    (h : ∀ n ∈ ns, ∀ s, Leads s (node settings n) (Gives settings n s)) (s : σ) :
    Leads s (nodes settings ns) (GivesAll settings ns s) := by
  induction ns generalizing s with
  | nil => exact leads_pure (.nil s)
  | cons n rest ih =>
      refine leads_bind (h n List.mem_cons_self s) fun v r hv => ?_
      refine leads_bind (ih (fun m hm => h m (List.mem_cons_of_mem _ hm)) r) fun vs t hvs => ?_
      exact leads_pure (.cons hv hvs)

/-- An annotation leads to a value that corresponds to it when its node does. -/
theorem annotated_gives {type : Option Node}
    (h : ∀ n ∈ type, ∀ s, Leads s (node settings n) (Gives settings n s)) (s : σ) :
    Leads s (annotated settings type) (GivesAnnotated settings type s) := by
  cases type with
  | none => exact leads_pure (.absent s)
  | some n => exact fun p v q hp hrun => .present (h n rfl s p v q hp hrun)

/-- A node in a role other than that of a name leads to a value that corresponds to it. -/
theorem fits_give {role : Role} {n : Node} (h : Node.Fits role n) (s : σ) :
    Leads s (node settings n) (Gives settings n s) := by
  induction h generalizing s with
  | unknown | stringLiteral | numericLiteral | computedName => exact leads_throw _ _
  | identifier text => exact leads_pure (.identifier text s)
  | literal text => exact leads_pure (.literal text s)
  | keyword k text => exact leads_pure (.keyword k text s)
  | interface text _ _ hfits _ hbases hmembers =>
      refine leads_resolve_name (leads_bind (nodes_give hmembers _) fun ms r hms => ?_)
      exact leads_bind (nodes_give hbases r) fun bs t hbs =>
        leads_add_export (.interface text hms (hms.names hfits) hbs)
  | typeAlias text _ _ _ htype =>
      exact leads_resolve_name (leads_bind (htype _) fun v t hv =>
        leads_add_export (.typeAlias text hv))
  | heritage base text => exact leads_pure (.heritage _ text (.identifier base s))
  | property optional text _ hfits _ htype =>
      have hsorted : Yields (annotated settings _) (Fills .type) :=
        yields_annotated fun n hn => fits_yields (hfits n hn)
      refine leads_resolve_name (leads_bind ((annotated_gives htype _).and hsorted) ?_)
      rintro v t ⟨hv, htype⟩
      cases optional with
      | false => exact leads_pure (.required text hv htype.is_opt)
      | true => exact leads_pure (.optional text hv htype.is_opt)
  | method text _ _ _ _ hparameters htype =>
      refine leads_resolve_name (leads_bind (annotated_gives htype _) fun result r hresult => ?_)
      exact leads_bind (nodes_give hparameters r) fun params t hparams =>
        leads_pure (.method text hresult hparams)
  | parameter optional text _ _ _ htype =>
      exact leads_resolve_name (leads_bind (annotated_gives htype _) fun v t hv =>
        leads_pure (.parameter optional text hv))
  | @reference arguments name text harguments ih =>
      match arguments with
      | [] => exact leads_pure (.reference _ text s)
      | [argument] =>
          rw [node]
          split
          case isTrue hname =>
            intro p v q hp hrun
            exact .wrapper text hname (ih argument List.mem_cons_self s p v q hp hrun)
          case isFalse => exact leads_throw _ _
      | _ :: _ :: _ => exact leads_throw _ _
  | function text _ _ hparameters htype =>
      refine leads_bind (annotated_gives htype s) fun result r hresult => ?_
      exact leads_bind (nodes_give hparameters r) fun params t hparams =>
        leads_pure (.function text hresult hparams)
  | typeLiteral text hfits hmembers =>
      exact leads_bind (nodes_give hmembers s) fun ms t hms =>
        leads_pure (.typeLiteral text hms (hms.names hfits))
  | array text _ helement =>
      exact leads_bind (helement s) fun v t hv => leads_pure (.array text hv)
  | tuple text _ htypes =>
      exact leads_bind (nodes_give htypes s) fun vs t hvs => leads_pure (.tuple text hvs)
  | union text _ htypes =>
      exact leads_bind (nodes_give htypes s) fun vs t hvs => leads_pure (.union text hvs)
  | parenthesized text _ htype =>
      exact fun p v q hp hrun => .parenthesized text (htype s p v q hp hrun)

/-- Statements in their role lead to declarations that correspond to those with a rule. -/
theorem statement_list_gives (fileName : String) {ns : List Node}
    (h : ∀ n ∈ ns, Node.Fits .statement n) (s : σ) :
    Leads s (statementList settings fileName ns) fun ds t =>
      GivesAll settings (ns.filter (·.kind.isHandled)) s (ds.map (·.toValidator)) t := by
  induction ns generalizing s with
  | nil => exact leads_pure (.nil s)
  | cons n rest ih =>
      have hrest := ih fun m hm => h m (List.mem_cons_of_mem _ hm)
      have hn := h n List.mem_cons_self
      rw [statementList]
      split
      case isTrue hhandled =>
        simp only [List.filter_cons, hhandled, if_true]
        refine leads_bind ((fits_give hn s).and (fits_yields hn)) ?_
        rintro v r ⟨hv, name, value, rfl, -⟩
        exact leads_bind (hrest r) fun ds t hds => leads_pure (.cons hv hds)
      case isFalse hhandled =>
        simp only [List.filter_cons, hhandled, Bool.false_eq_true, if_false]
        have hreport : Leads s (report (.skipped n.kindName fileName) : Compile σ Unit)
            fun _ t => t = s := by
          intro p a q hp hrun
          cases hrun
          exact hp
        refine leads_bind hreport ?_
        rintro ⟨⟩ t rfl
        exact hrest t

/-- A file without declarations below its statements exports its declarations behind what was
exported before. -/
theorem manifest_of_flat {f : SourceFile} {p : Progress σ} {m : CheckerModule} (hflat : f.IsFlat)
    (h : ((file settings f).run p).1 = .ok m) :
    m.manifest = p.exports.entries ++ m.declarations := by
  cases hrun : (file settings f).run p with
  | mk outcome q =>
      rw [hrun] at h
      obtain rfl : outcome = .ok m := h
      obtain ⟨ds, r, hstatements, hend⟩ := run_bind_ok hrun
      obtain ⟨added, hadded, -, hall⟩ := statement_list_exports hstatements
      cases hend
      show q.exports.entries = p.exports.entries ++ ds
      rw [hadded, hall fun n hn m hm => (hflat n hn).2 m hm]

/-- When a file that is read from a tree is compiled, with any resolver and any wrapper, its
declarations have well-sorted values, and it exports nothing else. The declarations correspond to
the statements with a rule: at every depth, properties have marked values if and only if they are
optional, and the members of interfaces have the names that the resolver gives to the members in
the source, in order. -/
theorem declarations_correspond (settings : CompileSettings σ) (p : Progress σ)
    {source : ByteArray} {fileName : String} {root : Tree} {f : SourceFile} {m : CheckerModule}
    (hlower : root.lower source fileName = .ok f) (hm : ((file settings f).run p).1 = .ok m) :
    (∀ d ∈ m.declarations, Fills .type d.value) ∧
      m.manifest = p.exports.entries ++ m.declarations ∧
      ∃ last, GivesAll settings (f.statements.filter (·.kind.isHandled)) p.session
        (m.declarations.map (·.toValidator)) last := by
  have hfits := (root.lower_meets source fileName).holds hlower
  have hmanifest := manifest_of_flat (SourceFile.is_flat_of_fits hfits) hm
  cases hrun : (file settings f).run p with
  | mk outcome q =>
      rw [hrun] at hm
      obtain rfl : outcome = .ok m := hm
      have hsorted := yields_file_sorted hfits p m q hrun
      obtain ⟨ds, r, hstatements, hend⟩ := run_bind_ok hrun
      cases hend
      have hgives := statement_list_gives f.fileName hfits p.session p ds q rfl hstatements
      exact ⟨hsorted, hmanifest, q.session, hgives⟩

/-- The tree of an interface with a base, an optional property and a method. -/
def memberTree : Tree :=
  .part "program" 0 52 none
    [.part "interface_declaration" 0 52 none
      [.token "interface" 0,
       .part "type_identifier" 10 11 (some "name") [],
       .part "extends_type_clause" 12 21 none
         [.token "extends" 12, .part "type_identifier" 20 21 (some "type") []],
       .part "interface_body" 22 52 (some "body")
         [.token "\x7b" 22,
          .part "property_signature" 24 31 none
            [.part "property_identifier" 24 25 (some "name") [], .token "?" 25,
             .part "type_annotation" 26 31 (some "type")
               [.token ":" 26,
                .part "array_type" 28 31 none
                  [.part "type_identifier" 28 29 none [], .token "[" 29, .token "]" 30]]],
          .token ";" 31,
          .part "method_signature" 33 50 none
            [.part "property_identifier" 33 34 (some "name") [],
             .part "formal_parameters" 34 40 (some "parameters")
               [.token "(" 34,
                .part "required_parameter" 35 39 none
                  [.part "identifier" 35 36 (some "pattern") [],
                   .part "type_annotation" 36 39 (some "type")
                     [.token ":" 36, .part "type_identifier" 38 39 none []]],
                .token ")" 39],
             .part "type_annotation" 40 50 (some "return_type")
               [.token ":" 40,
                .part "object_type" 42 50 none
                  [.token "\x7b" 42,
                   .part "property_signature" 44 48 none
                     [.part "property_identifier" 44 45 (some "name") [],
                      .part "type_annotation" 45 48 (some "type")
                        [.token ":" 45, .part "type_identifier" 47 48 none []]],
                   .token "\x7d" 49]]],
          .token "\x7d" 51]]]

/-- The source of an interface with a base, an optional property and a method. -/
def memberSource : String :=
  "interface A extends B \x7b x?: C[]; f(a: D): \x7b z: E \x7d \x7d"

/-- The file that the tree stands for. -/
def memberFile : SourceFile :=
  ⟨"a.ts",
    [.interface (.identifier "A") [.heritage (.identifier "B") [] "B"]
      [.property (.identifier "x")
        (some (.array (.reference (.identifier "C") [] "C") "C[]")) true "x?: C[]",
       .method (.identifier "f")
        [.parameter (.identifier "a") (some (.reference (.identifier "D") [] "D")) false "a: D"]
        (some (.typeLiteral [.property (.identifier "z")
          (some (.reference (.identifier "E") [] "E")) false "z: E"] "\x7b z: E \x7d"))
        "f(a: D): \x7b z: E \x7d"] memberSource],
    memberSource⟩

/-- The module that the file compiles to. -/
def memberModule : CheckerModule :=
  let declaration : Declaration := ⟨"A", .iface [.ref "B"]
    [.member "x" (.opt (.array (.ref "C"))),
     .member "f" (.func (.iface [] [.member "z" (.ref "E")]) [.param "a" (.ref "D") false])]⟩
  ⟨"a.ts", [declaration], [declaration]⟩

/-- The optional property has a marked value, and the method is a member with a function. -/
theorem declarations_correspond_members :
    memberTree.lower memberSource.toUTF8 "a.ts" = .ok memberFile ∧
      ((file ⟨Resolver.declared, "unknown", "Promise"⟩ memberFile).run (.start [])).1 =
        .ok memberModule ∧
      (∀ d ∈ memberModule.declarations, Fills .type d.value) ∧
      ∃ last, GivesAll ⟨Resolver.declared, "unknown", "Promise"⟩ memberFile.statements []
        (memberModule.declarations.map (·.toValidator)) last := by
  have hlower : memberTree.lower memberSource.toUTF8 "a.ts" = .ok memberFile :=
    SourceFile.eq_ok_of_same (by decide +kernel)
  have hm : ((file ⟨Resolver.declared, "unknown", "Promise"⟩ memberFile).run (.start [])).1 =
      .ok memberModule := rfl
  obtain ⟨hsorted, -, hgives⟩ :=
    declarations_correspond ⟨Resolver.declared, "unknown", "Promise"⟩ (.start []) hlower hm
  exact ⟨hlower, hm, hsorted, hgives⟩

end Compile

end TypeSuite
