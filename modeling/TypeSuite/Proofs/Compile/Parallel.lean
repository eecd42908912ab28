import TypeSuite.Proofs.Compile.Run

/-!
# Parallel compilations

Two compilations of one node with different resolvers take the same steps, and their values differ
in names only. `rename` applies a function to all names that resolvers give, so what it makes equal
differs in names that the function identifies: in nothing for the identity, in all names for a
constant. `node_parallel` says that all nodes are compiled in parallel, and `Parallel.agree` that
parallel runs agree when their single steps do.
-/

namespace TypeSuite

/-! ## Renaming -/

namespace Validator

mutual
/-- An expression with a function applied to the names of its parameters, members and
declarations. -/
def rename (f : String → String) : Validator → Validator
  | .ref name => .ref name
  | .opt inner => .opt (rename f inner)
  | .param name type optional => .param (f name) (rename f type) optional
  | .func result params => .func (rename f result) (renameAll f params)
  | .iface bases members => .iface (renameAll f bases) (renameAll f members)
  | .array element => .array (rename f element)
  | .tuple elements => .tuple (renameAll f elements)
  | .union members => .union (renameAll f members)
  | .literal text => .literal text
  | .member name value => .member (f name) (rename f value)
  | .declaration name value => .declaration (f name) (rename f value)
  | .module fileName declarations manifest =>
    .module fileName (renameAll f declarations) (renameAll f manifest)
  | .plain sort => .plain sort

/-- Expressions with a function applied to the names in them. -/
def renameAll (f : String → String) : List Validator → List Validator
  | [] => []
  | v :: rest => rename f v :: renameAll f rest
end

/-- Expressions are renamed one by one. -/
theorem rename_all_eq_map (f : String → String) (vs : List Validator) :
    renameAll f vs = vs.map (rename f) := by
  induction vs with
  | nil => rfl
  | cons v rest ih => rw [renameAll, ih, List.map_cons]

end Validator

/-- A declaration with a function applied to its name and to those in its value. -/
def Declaration.rename (f : String → String) (d : Declaration) : Declaration :=
  ⟨f d.name, d.value.rename f⟩

/-- A module with a function applied to the names in it. -/
def CheckerModule.rename (f : String → String) (m : CheckerModule) : CheckerModule :=
  ⟨m.fileName, m.declarations.map (·.rename f), m.manifest.map (·.rename f)⟩

/-- A renamed expression is a declaration when the expression is one. -/
theorem Validator.declaration_rename (f : String → String) (v : Validator) :
    (v.rename f).declaration? = v.declaration?.map (·.rename f) := by
  cases v <;> rfl

/-- A renamed module is an expression in the same way. -/
theorem CheckerModule.rename_to_validator (f : String → String) (m : CheckerModule) :
    m.toValidator.rename f = (m.rename f).toValidator := by
  simp [toValidator, rename, Validator.rename, Validator.rename_all_eq_map,
    Declaration.toValidator, Declaration.rename]

namespace Compile

open Step (run_bind_of_error run_bind_of_ok)

variable {σ τ α β : Type} {first : CompileSettings σ} {second : CompileSettings τ}
  {f : String → String}

/-! ## Parallel steps -/

/-- The exports of two compilations are the same when they are renamed. -/
def SameExports (f : String → String) (p : Progress σ) (q : Progress τ) : Prop :=
  p.exports.entries.map (·.rename f) = q.exports.entries.map (·.rename f)

/-- Two values are the same when they are renamed. -/
def Alike (f : String → String) (v w : Validator) : Prop :=
  v.rename f = w.rename f

/-- Two computations take the same steps, with names that are the same when they are renamed, and
their values are in a relation. -/
inductive Parallel (first : CompileSettings σ) (second : CompileSettings τ)
    (f : String → String) :
    {α β : Type} → (α → β → Prop) → Compile σ α → Compile τ β → Prop where
  | pure {α β : Type} {R : α → β → Prop} {a : α} {b : β} :
      R a b → Parallel first second f R (pure a) (pure b)
  | throw {α β : Type} (R : α → β → Prop) (e : CompileError) :
      Parallel first second f R (throw e) (throw e)
  | bind {α β α' β' : Type} {R : α → β → Prop} {S : α' → β' → Prop} {x : Compile σ α}
      {y : Compile τ β} {k : α → Compile σ α'} {l : β → Compile τ β'} :
      Parallel first second f R x y →
      (∀ a b, R a b → Parallel first second f S (k a) (l b)) →
      Parallel first second f S (x >>= k) (y >>= l)
  | resolveName (n : Node) :
      Parallel first second f (fun a b => f a = f b) (resolveName first n) (resolveName second n)
  | report (event : Event) : Parallel first second f Eq (report event) (report event)
  | read : Parallel first second f (SameExports f) get get
  | add {d e : Declaration} : d.rename f = e.rename f →
      Parallel first second f (Alike f) (addExport d) (addExport e)

/-- Members with the same mark are alike when their values are. -/
theorem alike_optional_value (optional : Bool) {v w : Validator} (h : Alike f v w) :
    Alike f (optionalValue optional v) (optionalValue optional w) := by
  cases optional with
  | false => exact h
  | true => exact congrArg Validator.opt h

mutual
/-- A node is compiled in parallel by any two resolvers. -/
theorem node_parallel (hwrapper : first.wrapper = second.wrapper) (n : Node) :
    Parallel first second f (Alike f) (node first n) (node second n) := by
  cases n with
  | identifier text => exact .pure rfl
  | stringLiteral text => exact .throw _ _
  | numericLiteral text => exact .throw _ _
  | computedName text => exact .throw _ _
  | parameter name type optional text =>
      refine .bind (.resolveName name) fun a b hname => ?_
      refine .bind (annotated_parallel hwrapper type) fun v w hvalue => .pure ?_
      simp [Alike, Validator.rename, hname, show v.rename f = w.rename f from hvalue]
  | property name type optional text =>
      refine .bind (.resolveName name) fun a b hname => ?_
      refine .bind (annotated_parallel hwrapper type) fun v w hvalue => .pure ?_
      have hmarked := alike_optional_value optional hvalue
      rw [Alike, Validator.rename, Validator.rename, hname, hmarked]
  | method name parameters type text =>
      refine .bind (.resolveName name) fun a b hname => ?_
      refine .bind (annotated_parallel hwrapper type) fun v w hresult => ?_
      refine .bind (nodes_parallel hwrapper parameters) fun vs ws hparams => .pure ?_
      simp only [Alike] at hresult
      simp [Alike, Validator.rename, hname, hresult, hparams]
  | reference name arguments text =>
      match arguments with
      | [] => exact .pure rfl
      | [argument] =>
          have hargument := node_parallel hwrapper argument
          rw [node, node, hwrapper]
          split
          case isTrue => exact hargument
          case isFalse => exact .throw _ _
      | _ :: _ :: _ => exact .throw _ _
  | function parameters type text =>
      refine .bind (annotated_parallel hwrapper type) fun v w hresult => ?_
      refine .bind (nodes_parallel hwrapper parameters) fun vs ws hparams => .pure ?_
      simp only [Alike] at hresult
      simp [Alike, Validator.rename, hresult, hparams]
  | typeLiteral members text =>
      refine .bind (nodes_parallel hwrapper members) fun vs ws hmembers => .pure ?_
      simp [Alike, Validator.rename, hmembers]
  | array element text =>
      exact .bind (node_parallel hwrapper element) fun v w helement =>
        .pure (congrArg Validator.array helement)
  | tuple elements text =>
      exact .bind (nodes_parallel hwrapper elements) fun vs ws helements =>
        .pure (congrArg Validator.tuple helements)
  | union types text =>
      exact .bind (nodes_parallel hwrapper types) fun vs ws htypes =>
        .pure (congrArg Validator.union htypes)
  | literal text => exact .pure rfl
  | interface name bases members text =>
      refine .bind (.resolveName name) fun a b hname => ?_
      refine .bind (nodes_parallel hwrapper members) fun vs ws hmembers => ?_
      refine .bind (nodes_parallel hwrapper bases) fun us xs hbases => .add ?_
      simp [Declaration.rename, Validator.rename, hname, hmembers, hbases]
  | «alias» name type text =>
      refine .bind (.resolveName name) fun a b hname => ?_
      refine .bind (node_parallel hwrapper type) fun v w hvalue => .add ?_
      simp only [Alike] at hvalue
      simp [Declaration.rename, hname, hvalue]
  | heritage expression arguments text => exact node_parallel hwrapper expression
  | parenthesized type text => exact node_parallel hwrapper type
  | keyword keyword text => exact .pure rfl
  | sourceFile fileName statements text =>
      refine .bind (statement_list_parallel hwrapper fileName statements) fun ds es hds => ?_
      refine .bind .read fun p q hexports => .pure ?_
      simp only [Alike, CheckerModule.rename_to_validator]
      simp [CheckerModule.rename, hds, show p.exports.entries.map (·.rename f) = _ from hexports]
  | unknown form text => exact .throw _ _

/-- Nodes are compiled in parallel. -/
theorem nodes_parallel (hwrapper : first.wrapper = second.wrapper) (ns : List Node) :
    Parallel first second f
      (fun vs ws => Validator.renameAll f vs = Validator.renameAll f ws)
      (nodes first ns) (nodes second ns) := by
  cases ns with
  | nil => exact .pure rfl
  | cons n rest =>
      refine .bind (node_parallel hwrapper n) fun v w hvalue => ?_
      refine .bind (nodes_parallel hwrapper rest) fun vs ws hrest => .pure ?_
      simp only [Alike] at hvalue
      simp [Validator.renameAll, hvalue, hrest]

/-- Annotations are compiled in parallel. -/
theorem annotated_parallel (hwrapper : first.wrapper = second.wrapper) (type : Option Node) :
    Parallel first second f (Alike f) (annotated first type) (annotated second type) := by
  cases type with
  | none => exact .pure rfl
  | some n => exact node_parallel hwrapper n

/-- The statements of a file are compiled in parallel. -/
theorem statement_list_parallel (hwrapper : first.wrapper = second.wrapper) (fileName : String)
    (ns : List Node) :
    Parallel first second f
      (fun ds es => ds.map (Declaration.rename f) = es.map (Declaration.rename f))
      (statementList first fileName ns) (statementList second fileName ns) := by
  cases ns with
  | nil => exact .pure rfl
  | cons n rest =>
      have hrest := statement_list_parallel hwrapper fileName rest
      rw [statementList, statementList]
      split
      case isTrue =>
        refine .bind (node_parallel hwrapper n) fun v w hvalue => ?_
        refine .bind hrest fun ds es hds => .pure ?_
        have hgiven : v.declaration?.map (Declaration.rename f) =
            w.declaration?.map (Declaration.rename f) := by
          rw [← Validator.declaration_rename, ← Validator.declaration_rename]
          exact congrArg Validator.declaration? hvalue
        rw [List.map_append, List.map_append, ← Option.toList_map, hgiven, Option.toList_map, hds]
      case isFalse => exact .bind (.report _) fun _ _ _ => hrest
end

/-- A file is compiled in parallel by any two resolvers. -/
theorem file_parallel (first : CompileSettings σ) (second : CompileSettings τ)
    (f : String → String) (hwrapper : first.wrapper = second.wrapper) (file : SourceFile) :
    Parallel first second f (fun m m' => m.rename f = m'.rename f)
      (Compile.file first file) (Compile.file second file) := by
  refine .bind (statement_list_parallel hwrapper file.fileName file.statements) fun ds es hds => ?_
  refine .bind .read fun p q hexports => .pure ?_
  simp [CheckerModule.rename, hds, show p.exports.entries.map (·.rename f) = _ from hexports]

/-! ## Parallel runs -/

/-- Two runs agree: they give related values or fail with the same error, and what is kept between
them is kept. Where it is excused, one of them may be refused for an export instead. -/
inductive Agree (kept : Progress σ → Progress τ → Prop) (excused : Prop) (R : α → β → Prop) :
    Except CompileError α × Progress σ → Except CompileError β × Progress τ → Prop where
  | values {a : α} {b : β} {p : Progress σ} {q : Progress τ} :
      R a b → kept p q → Agree kept excused R (.ok a, p) (.ok b, q)
  | errors {p : Progress σ} {q : Progress τ} (e : CompileError) :
      kept p q → Agree kept excused R (.error e, p) (.error e, q)
  | takenFirst (name : String) (p : Progress σ) (r : Except CompileError β × Progress τ) :
      excused → Agree kept excused R (.error (.duplicateExport name), p) r
  | takenSecond (name : String) (r : Except CompileError α × Progress σ) (q : Progress τ) :
      excused → Agree kept excused R r (.error (.duplicateExport name), q)

/-- What the single steps of two compilations keep between them. -/
structure Keeps (first : CompileSettings σ) (second : CompileSettings τ) (f : String → String)
    (kept : Progress σ → Progress τ → Prop) (excused : Prop) : Prop where
  exports {p : Progress σ} {q : Progress τ} : kept p q → SameExports f p q
  resolveName {p : Progress σ} {q : Progress τ} (n : Node) : kept p q →
    Agree kept excused (fun a b => f a = f b) ((resolveName first n).run p)
      ((resolveName second n).run q)
  report {p : Progress σ} {q : Progress τ} (event : Event) : kept p q →
    Agree kept excused Eq ((report event).run p) ((report event).run q)
  add {p : Progress σ} {q : Progress τ} {d e : Declaration} : d.rename f = e.rename f → kept p q →
    Agree kept excused (Alike f) ((addExport d).run p) ((addExport e).run q)

/-- Computations that take the same steps agree when the single steps do. -/
theorem Parallel.agree {kept : Progress σ → Progress τ → Prop} {excused : Prop}
    (hkeeps : Keeps first second f kept excused) {R : α → β → Prop} {x : Compile σ α}
    {y : Compile τ β} (h : Parallel first second f R x y) {p : Progress σ} {q : Progress τ}
    (hpq : kept p q) : Agree kept excused R (x.run p) (y.run q) := by
  induction h generalizing p q with
  | pure hab => exact .values hab hpq
  | throw _ e => exact .errors e hpq
  | @bind _ _ _ _ _ _ x y k l _ _ hx hk =>
      have hfirst := hx hpq
      cases hleft : x.run p with
      | mk o p' =>
          cases hright : y.run q with
          | mk o' q' =>
              rw [hleft, hright] at hfirst
              cases hfirst with
              | values hab hafter =>
                  rw [run_bind_of_ok hleft, run_bind_of_ok hright]
                  exact hk _ _ hab hafter
              | errors e hafter =>
                  rw [run_bind_of_error hleft, run_bind_of_error hright]
                  exact .errors e hafter
              -- A refused export ends one run, whatever the other one does.
              | takenFirst name _ _ hexcused =>
                  rw [run_bind_of_error hleft]
                  exact .takenFirst _ _ _ hexcused
              | takenSecond name _ _ hexcused =>
                  rw [run_bind_of_error hright]
                  exact .takenSecond _ _ _ hexcused
  | resolveName n => exact hkeeps.resolveName n hpq
  | report event => exact hkeeps.report event hpq
  | read => exact .values (hkeeps.exports hpq) hpq
  | add hsame => exact hkeeps.add hsame hpq

end Compile

end TypeSuite
