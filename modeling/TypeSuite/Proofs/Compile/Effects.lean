import TypeSuite.Proofs.Compile.Run
import TypeSuite.Proofs.Node.Occurrence

/-!
# Effects of compilation steps

A compilation asks for names, reports and fails; besides that, source files read the exports so far
and declarations add to them. `node_performs` says that a node has only the effects of the nodes
that occur in it, and what all runs with certain effects do is shown by induction on `Performs`.
-/

namespace TypeSuite

/-- What a compilation may do with its exports. -/
inductive Effect where
  | read | add
deriving DecidableEq, Repr

namespace Compile

variable {σ : Type} {settings : CompileSettings σ} {allowed : Effect → Prop}

/-- A computation is made of finished values, failures, names, reports and the allowed effects. -/
inductive Performs (settings : CompileSettings σ) (allowed : Effect → Prop) :
    {α : Type} → Compile σ α → Prop where
  | pure {α : Type} (a : α) : Performs settings allowed (pure a)
  | throw {α : Type} (e : CompileError) : Performs settings allowed (throw e : Compile σ α)
  | bind {α β : Type} {x : Compile σ α} {f : α → Compile σ β} :
      Performs settings allowed x → (∀ a, Performs settings allowed (f a)) →
      Performs settings allowed (x >>= f)
  | resolveName (n : Node) : Performs settings allowed (resolveName settings n)
  | report (event : Event) : Performs settings allowed (report event)
  | read : allowed .read → Performs settings allowed (get : Compile σ (Progress σ))
  | add (d : Declaration) : allowed .add → Performs settings allowed (addExport d)

/-- The effects of the nodes that occur in a node are allowed. -/
def Permits (allowed : Effect → Prop) (n : Node) : Prop :=
  ∀ m, Node.Occurs m n →
    (m.kind = .sourceFile → allowed .read) ∧ (Node.isDeclaration m.kind = true → allowed .add)

/-- What is allowed for a node is allowed for the nodes in its fields. -/
theorem Permits.child {n : Node} (h : Permits allowed n) :
    ∀ c ∈ n.children, Permits allowed c := by
  intro c hc m hm
  exact h m (.inside hc hm)

mutual
/-- A node has the effects of the nodes that occur in it and no others. -/
theorem node_performs {n : Node} (h : Permits allowed n) :
    Performs settings allowed (node settings n) := by
  have hchild := h.child
  cases n with
  | identifier text => exact .pure _
  | stringLiteral text => exact .throw _
  | numericLiteral text => exact .throw _
  | computedName text => exact .throw _
  | parameter name type optional text =>
      have htype : Performs settings allowed (annotated settings type) :=
        annotated_performs fun m hm => hchild m (by simp [Node.children, Option.mem_def.mp hm])
      exact .bind (.resolveName name) fun _ => .bind htype fun _ => .pure _
  | property name type optional text =>
      have htype : Performs settings allowed (annotated settings type) :=
        annotated_performs fun m hm => hchild m (by simp [Node.children, Option.mem_def.mp hm])
      exact .bind (.resolveName name) fun _ => .bind htype fun _ => .pure _
  | method name parameters type text =>
      have htype : Performs settings allowed (annotated settings type) :=
        annotated_performs fun m hm => hchild m (by simp [Node.children, Option.mem_def.mp hm])
      have hparameters : Performs settings allowed (nodes settings parameters) :=
        nodes_performs fun m hm => hchild m (by simp [Node.children, hm])
      exact .bind (.resolveName name) fun _ => .bind htype fun _ => .bind hparameters fun _ =>
        .pure _
  | reference name arguments text =>
      match arguments with
      | [] => exact .pure _
      | [argument] =>
          have hargument : Performs settings allowed (node settings argument) :=
            node_performs (hchild argument (by simp [Node.children]))
          rw [node]
          split
          case isTrue => exact hargument
          case isFalse => exact .throw _
      | _ :: _ :: _ => exact .throw _
  | function parameters type text =>
      have htype : Performs settings allowed (annotated settings type) :=
        annotated_performs fun m hm => hchild m (by simp [Node.children, Option.mem_def.mp hm])
      have hparameters : Performs settings allowed (nodes settings parameters) :=
        nodes_performs fun m hm => hchild m (by simp [Node.children, hm])
      exact .bind htype fun _ => .bind hparameters fun _ => .pure _
  | typeLiteral members text =>
      have hmembers : Performs settings allowed (nodes settings members) :=
        nodes_performs fun m hm => hchild m (by simp [Node.children, hm])
      exact .bind hmembers fun _ => .pure _
  | array element text =>
      have helement : Performs settings allowed (node settings element) :=
        node_performs (hchild element (by simp [Node.children]))
      exact .bind helement fun _ => .pure _
  | tuple elements text =>
      have helements : Performs settings allowed (nodes settings elements) :=
        nodes_performs fun m hm => hchild m (by simp [Node.children, hm])
      exact .bind helements fun _ => .pure _
  | union types text =>
      have htypes : Performs settings allowed (nodes settings types) :=
        nodes_performs fun m hm => hchild m (by simp [Node.children, hm])
      exact .bind htypes fun _ => .pure _
  | literal text => exact .pure _
  | interface name bases members text =>
      have hmembers : Performs settings allowed (nodes settings members) :=
        nodes_performs fun m hm => hchild m (by simp [Node.children, hm])
      have hbases : Performs settings allowed (nodes settings bases) :=
        nodes_performs fun m hm => hchild m (by simp [Node.children, hm])
      have hadd : allowed .add := (h _ .here).2 rfl
      exact .bind (.resolveName name) fun _ => .bind hmembers fun _ => .bind hbases fun _ =>
        .add _ hadd
  | «alias» name type text =>
      have htype : Performs settings allowed (node settings type) :=
        node_performs (hchild type (by simp [Node.children]))
      have hadd : allowed .add := (h _ .here).2 rfl
      exact .bind (.resolveName name) fun _ => .bind htype fun _ => .add _ hadd
  | heritage expression arguments text =>
      have hexpression : Performs settings allowed (node settings expression) :=
        node_performs (hchild expression (by simp [Node.children]))
      exact hexpression
  | parenthesized type text =>
      have htype : Performs settings allowed (node settings type) :=
        node_performs (hchild type (by simp [Node.children]))
      exact htype
  | keyword keyword text => exact .pure _
  | sourceFile fileName statements text =>
      have hread : allowed .read := (h _ .here).1 rfl
      have hstatements : Performs settings allowed (statementList settings fileName statements) :=
        statement_list_performs fileName hchild
      exact .bind hstatements fun _ => .bind (.read hread) fun _ => .pure _
  | unknown form text => exact .throw _

/-- Nodes have the effects of the nodes that occur in them and no others. -/
theorem nodes_performs {ns : List Node} (h : ∀ n ∈ ns, Permits allowed n) :
    Performs settings allowed (nodes settings ns) := by
  cases ns with
  | nil => exact .pure _
  | cons n rest =>
      have hnode := node_performs (h n List.mem_cons_self)
      have hrest := nodes_performs fun m hm => h m (List.mem_cons_of_mem _ hm)
      exact .bind hnode fun _ => .bind hrest fun _ => .pure _

/-- An annotation has the effects of the nodes that occur in it and no others. -/
theorem annotated_performs {type : Option Node} (h : ∀ n ∈ type, Permits allowed n) :
    Performs settings allowed (annotated settings type) := by
  cases type with
  | none => exact .pure _
  | some n => exact node_performs (h n rfl)

/-- Statements have the effects of the nodes that occur in them and no others. -/
theorem statement_list_performs (fileName : String) {ns : List Node}
    (h : ∀ n ∈ ns, Permits allowed n) :
    Performs settings allowed (statementList settings fileName ns) := by
  cases ns with
  | nil => exact .pure _
  | cons n rest =>
      have hnode := node_performs (h n List.mem_cons_self)
      have hrest := statement_list_performs fileName fun m hm => h m (List.mem_cons_of_mem _ hm)
      rw [statementList]
      split
      case isTrue => exact .bind hnode fun _ => .bind hrest fun _ => .pure _
      case isFalse => exact .bind (.report _) fun _ => hrest
end

end Compile

end TypeSuite
