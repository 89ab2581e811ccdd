import Calculation.Relation

/-!
The nodes of a chain: the places a user can select.

Every step of a chain contributes one node for each subexpression of its expression.  The nodes of
a step stand next to each other, an operation before its operands and the left operand before the
right one, so a node is known by its index.  The first node of a step is its root.
-/

namespace Calculation

/-- What tells chains apart.  A chain that was made later has a greater one. -/
abbrev ChainId := Nat

/-- What tells the nodes of all chains apart: the chain and the index among its nodes. -/
structure NodeId where
  chain : ChainId
  index : Nat
deriving DecidableEq

/-- The link that a user chose for a node. -/
structure Choice where
  /-- The side of the node, which decides where the session keeps the choice. -/
  side : Side
  link : Link
deriving DecidableEq

/-- A subexpression of a step. -/
structure Node where
  expr : Expr
  /-- The index of the operation that the node is an operand of. -/
  parent : Option Nat
  /-- The index of the first node of the step. -/
  root : Nat
  side : Side
  /-- The indices of the operands, from left to right. -/
  operands : List Nat
  choice : Option Choice := none
deriving DecidableEq

namespace Node

def isRoot (node : Node) : Bool := node.parent.isNone

/-- The nodes of an expression that has the given place in a chain, its own node at `index`. -/
def layout (expr : Expr) (parent : Option Nat) (root : Nat) (side : Side) (index : Nat) :
    List Node :=
  match expr with
  | .atom symbol => [{ expr := .atom symbol, parent, root, side, operands := [] }]
  | .unary operator operand =>
    { expr := .unary operator operand, parent, root, side, operands := [index + 1] } ::
      layout operand (some index) root .left (index + 1)
  | .binary operator lhs rhs =>
    let right := index + 1 + lhs.size
    { expr := .binary operator lhs rhs, parent, root, side, operands := [index + 1, right] } ::
      (layout lhs (some index) root .left (index + 1) ++
        layout rhs (some index) root .right right)

/-- An expression has as many nodes as subexpressions, so the next step begins after them. -/
theorem length_layout (expr : Expr) (parent : Option Nat) (root : Nat) (side : Side)
    (index : Nat) : (layout expr parent root side index).length = expr.size := by
  induction expr generalizing parent side index with
  | atom symbol => rfl
  | unary operator operand ih => simp [layout, ih, Expr.size]
  | binary operator lhs rhs ihl ihr => simp [layout, ihl, ihr, Expr.size]

end Node

end Calculation
