import ConfigScript.Proofs.Syntax.Placed

/-!
# Nodes inside nodes

Induction over a tree from what stands below a node, and what being below means for places: all
nodes of a placed tree stand inside the span of its root.
-/

namespace ConfigScript

namespace Span

def Inside (inner outer : Span) : Prop :=
  outer.start ≤ inner.start ∧ inner.stop ≤ outer.stop

def Before (first second : Span) : Prop :=
  first.stop < second.start

def Apart (first second : Span) : Prop :=
  first.Before second ∨ second.Before first

theorem sizeOf_pos (span : Span) : 0 < sizeOf span := by
  cases span
  simp only [Span.mk.sizeOf_spec]
  omega

theorem Inside.refl (span : Span) : span.Inside span :=
  ⟨Nat.le_refl _, Nat.le_refl _⟩

theorem Inside.trans {inner middle outer : Span} (h : inner.Inside middle)
    (houter : middle.Inside outer) : inner.Inside outer :=
  ⟨Nat.le_trans houter.1 h.1, Nat.le_trans h.2 houter.2⟩

/-- What lies inside spans apart from each other is apart, too. -/
theorem Before.inside {first second left right : Span} (h : first.Before second)
    (hleft : left.Inside first) (hright : right.Inside second) : left.Before right := by
  have hstop := hleft.2
  have hstart := hright.1
  unfold Before at h ⊢
  omega

theorem not_before_self {span : Span} (h : span.start ≤ span.stop) : ¬ span.Before span := by
  unfold Before
  omega

theorem Exact.start_le_stop {source : String} {span : Span} (h : span.Exact source) :
    span.start ≤ span.stop := by
  obtain ⟨before, text, rest, -, rfl⟩ := h
  simp only [Position.spanTo, Position.behind, String.utf8ByteSize_append]
  omega

end Span

namespace Node

variable {source : String} {root node : Node} {body : Block} {p : Node → Prop}

/-- A node right below another one. -/
def Child (parent child : Node) : Prop :=
  child ∈ parent.children

theorem sizeOf_lt_of_receiver {receiver : Option Expr} {child : Node}
    (h : child ∈ receiver.toList.map Node.expr) : sizeOf child < sizeOf receiver + 1 := by
  cases receiver with
  | none => cases h
  | some value =>
    obtain rfl := List.mem_singleton.mp h
    simp only [Node.expr.sizeOf_spec, Option.some.sizeOf_spec]
    omega

theorem sizeOf_lt_of_child_expr {value : Expr} {child : Node}
    (h : (Node.expr value).Child child) : sizeOf child < sizeOf value := by
  cases value with
  | property receiver name span =>
    have hlt := sizeOf_lt_of_receiver h
    simp only [Expr.property.sizeOf_spec]
    omega
  | call receiver name arguments span =>
    simp only [Expr.call.sizeOf_spec]
    cases List.mem_append.mp h with
    | inl hchild =>
      have hlt := sizeOf_lt_of_receiver hchild
      omega
    | inr hchild =>
      obtain ⟨argument, hargument, rfl⟩ := List.mem_map.mp hchild
      have hlt := List.sizeOf_lt_of_mem hargument
      simp only [Node.argument.sizeOf_spec]
      omega
  | literal => cases h
  | null => cases h
  | this => cases h

theorem sizeOf_lt_of_child_argument {value : Argument} {child : Node}
    (h : (Node.argument value).Child child) : sizeOf child < sizeOf value := by
  cases value with
  | positional value span =>
    obtain rfl := List.mem_singleton.mp h
    simp only [Argument.positional.sizeOf_spec, Node.expr.sizeOf_spec]
    have hspan := span.sizeOf_pos
    omega
  | named name value span =>
    obtain rfl := List.mem_singleton.mp h
    simp only [Argument.named.sizeOf_spec, Node.expr.sizeOf_spec]
    have hspan := span.sizeOf_pos
    omega
  | lambda body span =>
    obtain rfl := List.mem_singleton.mp h
    simp only [Argument.lambda.sizeOf_spec, Node.block.sizeOf_spec]
    have hspan := span.sizeOf_pos
    omega

theorem sizeOf_lt_of_child_statement {value : Statement} {child : Node}
    (h : (Node.statement value).Child child) : sizeOf child < sizeOf value + 1 := by
  cases value with
  | importName => cases h
  | assignment receiver name target value span =>
    simp only [Statement.assignment.sizeOf_spec]
    rcases List.mem_cons.mp h with rfl | hvalue
    · have hspan := span.sizeOf_pos
      simp only [Node.expr.sizeOf_spec, Expr.property.sizeOf_spec]
      omega
    · obtain rfl := List.mem_singleton.mp hvalue
      simp only [Node.expr.sizeOf_spec]
      omega
  | localValue name value span =>
    obtain rfl := List.mem_singleton.mp h
    simp only [Statement.localValue.sizeOf_spec, Node.expr.sizeOf_spec]
    omega
  | expr value =>
    obtain rfl := List.mem_singleton.mp h
    simp only [Statement.expr.sizeOf_spec, Node.expr.sizeOf_spec]
    omega

theorem sizeOf_lt_of_child {parent child : Node} (h : parent.Child child) :
    sizeOf child < sizeOf parent := by
  cases parent with
  | expr value =>
    have hlt := sizeOf_lt_of_child_expr h
    simp only [Node.expr.sizeOf_spec]
    omega
  | argument value =>
    have hlt := sizeOf_lt_of_child_argument h
    simp only [Node.argument.sizeOf_spec]
    omega
  | block value =>
    obtain ⟨statements, span⟩ := value
    obtain ⟨statement, hstatement, rfl⟩ := List.mem_map.mp h
    have hlt := List.sizeOf_lt_of_mem hstatement
    simp only [Node.block.sizeOf_spec, Block.mk.sizeOf_spec, Node.statement.sizeOf_spec]
    omega
  | statement value =>
    have hlt := sizeOf_lt_of_child_statement h
    simp only [Node.statement.sizeOf_spec]
    omega

theorem sizeOf_lt_of_below (h : Relation.TransGen Child root node) : sizeOf node < sizeOf root := by
  induction h with
  | single h => exact sizeOf_lt_of_child h
  | tail _ hchild ih => exact (sizeOf_lt_of_child hchild).trans ih

/-- What holds of a node as soon as it holds of all nodes below it holds of every node. -/
theorem below_induction {motive : Node → Prop}
    (h : ∀ node, (∀ below, Relation.TransGen Child node below → motive below) → motive node)
    (node : Node) : motive node := by
  induction hsize : sizeOf node using Nat.strongRecOn generalizing node with
  | ind size ih =>
    apply h
    intro below hbelow
    exact ih _ (hsize ▸ sizeOf_lt_of_below hbelow) below rfl

theorem Everywhere.within (h : root.Everywhere p) (hnode : root.Within node) :
    node.Everywhere p :=
  fun other hother => h other (hnode.trans hother)

/-- All that stands in a placed node stands inside its span. -/
theorem Within.inside (h : root.Within node) (hplaced : root.Everywhere (Placed source)) :
    node.span.Inside root.span := by
  induction h with
  | refl => exact .refl _
  | tail hparent hchild ih => exact Span.Inside.trans ((hplaced _ hparent).encloses _ hchild) ih

/-- Of two placed nodes one behind the other neither stands in the tree of the other. -/
theorem not_within_of_before {first second : Node} (hfirst : first.Everywhere (Placed source))
    (hsecond : second.Everywhere (Placed source)) (h : first.span.Before second.span) :
    ¬ first.Within second ∧ ¬ second.Within first := by
  constructor
  · intro hwithin
    exact Span.not_before_self hsecond.here.exact.start_le_stop
      (h.inside (hwithin.inside hfirst) (.refl _))
  · intro hwithin
    exact Span.not_before_self hfirst.here.exact.start_le_stop
      (h.inside (.refl _) (hwithin.inside hsecond))

/-- A place inside a configure block below a node. -/
def Nests (root : Node) (span : Span) : Prop :=
  ∃ body, root.Within (.block body) ∧ span.Inside body.span

theorem Nests.widen {span : Span} (h : node.Nests span) (hnode : root.Within node) :
    root.Nests span := by
  obtain ⟨body, hbody, hspan⟩ := h
  exact ⟨body, hnode.trans hbody, hspan⟩

end Node

end ConfigScript
