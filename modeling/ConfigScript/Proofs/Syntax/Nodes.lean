import Mathlib.Logic.Relation
import ConfigScript.Proofs.Syntax.Reading

/-!
# The nodes of a tree

Blocks, statements, arguments and expressions as nodes of one kind, each with the nodes right below
it in source order. The property that an assignment writes to is a node of its own.
-/

namespace ConfigScript

inductive Node where
  | expr (value : Expr)
  | argument (value : Argument)
  | block (value : Block)
  | statement (value : Statement)

namespace Node

def span : Node → Span
  | .expr value => value.span
  | .argument value => value.span
  | .block value => value.span
  | .statement value => value.span

def children : Node → List Node
  | .expr (.property receiver _ _) => receiver.toList.map .expr
  | .expr (.call receiver _ arguments _) =>
    receiver.toList.map .expr ++ arguments.map .argument
  | .expr _ => []
  | .argument (.positional value _) => [.expr value]
  | .argument (.named _ value _) => [.expr value]
  | .argument (.lambda body _) => [.block body]
  | .block (.mk statements _) => statements.map .statement
  | .statement (.importName _ _) => []
  | .statement (.assignment receiver name target value _) =>
    [.expr (.property receiver name target), .expr value]
  | .statement (.localValue _ value _) => [.expr value]
  | .statement (.expr value) => [.expr value]

/-- A node of the tree below a root, which is one of them itself. -/
def Within : Node → Node → Prop :=
  Relation.ReflTransGen fun parent child => child ∈ parent.children

/-- Whether every node of a tree is of a kind. -/
def Everywhere (p : Node → Prop) (root : Node) : Prop :=
  ∀ node, root.Within node → p node

variable {p : Node → Prop} {root : Node}

theorem everywhere_iff :
    root.Everywhere p ↔ p root ∧ ∀ child ∈ root.children, child.Everywhere p := by
  constructor
  · intro h
    refine ⟨h root .refl, fun child hchild node hnode => ?_⟩
    exact h node (.head hchild hnode)
  · rintro ⟨hroot, hbelow⟩ node hnode
    rcases Relation.ReflTransGen.cases_head hnode with rfl | ⟨child, hchild, hnode⟩
    · exact hroot
    · exact hbelow child hchild node hnode

theorem Everywhere.here (h : root.Everywhere p) : p root :=
  (everywhere_iff.mp h).1

end Node

end ConfigScript
