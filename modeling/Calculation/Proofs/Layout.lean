import Mathlib.Data.List.Nodup
import Calculation.Proofs.Run

/-!
Where the nodes of a chain are, and what their indices say.

The nodes of an expression are a block: its own node, then the blocks of its operands one after the
other (`Node.Block`).  Every node of a block begins a block itself, and is an operand of a node
before it unless it is the first (`Node.Block.exists_of_le`).  The steps of a chain are blocks that
lie next to each other (`Chain.block_of_starts`, `Chain.exists_step`).  All that the indices in the
nodes say about the expressions follows from these three facts (`Chain.Laid`).

* `Workspace.exists_run_laid`: it is so of every chain, whatever was done.
-/

namespace Calculation

/-- The subexpressions, an operation before its operands and the left one first. -/
def Expr.preOrder : Expr → List Expr
  | .atom symbol => [.atom symbol]
  | .unary operator operand => .unary operator operand :: operand.preOrder
  | .binary operator lhs rhs => .binary operator lhs rhs :: (lhs.preOrder ++ rhs.preOrder)

/-- What follows the front of a list that begins at an index begins after the front. -/
theorem prefix_drop_of_append {α : Type} {front back list : List α} {index : Nat}
    (begins : front ++ back <+: list.drop index) : back <+: list.drop (index + front.length) := by
  rcases begins with ⟨rest, same⟩
  rw [← List.drop_drop, ← same, List.append_assoc, List.drop_left]
  exact List.prefix_append _ _

theorem prefix_drop_of_cons {α : Type} {first : α} {rest list : List α} {index : Nat}
    (begins : first :: rest <+: list.drop index) : rest <+: list.drop (index + 1) :=
  prefix_drop_of_append (show [first] ++ rest <+: list.drop index from begins)

namespace Node

/-! ## Blocks -/

/-- The nodes of the expression are in the list from the index on. -/
def Block (nodes : List Node) (root : Nat) (expr : Expr) (parent : Option Nat) (side : Side)
    (index : Nat) : Prop :=
  layout expr parent root side index <+: nodes.drop index

/-- The index is that of an operand of the operation, on the side. -/
def Below (nodes : List Node) (root operation : Nat) (side : Side) (index : Nat) : Prop :=
  ∃ expr parent beside position, Block nodes root expr parent beside operation ∧
    (operandIndices operation expr)[position]? = some index ∧ (side = .right ↔ position = 1)

variable {nodes : List Node} {root index : Nat} {expr : Expr} {parent : Option Nat} {side : Side}

theorem Block.getElem? (block : Block nodes root expr parent side index) :
    nodes[index]? = some (first expr parent root side index) := by
  rcases block with ⟨rest, same⟩
  rw [← Nat.add_zero index, ← List.getElem?_drop, ← same]
  cases expr with
  | atom symbol => rfl
  | unary operator operand => rfl
  | binary operator lhs rhs => rfl

/-- Choices apart, a node at the beginning of a block is that of the expression. -/
theorem Block.bare_eq {node : Node} (block : Block (nodes.map bare) root expr parent side index)
    (here : nodes[index]? = some node) : node.bare = first expr parent root side index := by
  have same := block.getElem?
  rw [List.getElem?_map, here] at same
  exact Option.some.inj same

theorem Block.exists_node (block : Block (nodes.map bare) root expr parent side index) :
    ∃ node, nodes[index]? = some node ∧ node.bare = first expr parent root side index := by
  have here := block.getElem?
  rw [List.getElem?_map] at here
  exact Option.map_eq_some_iff.1 here

theorem Block.operand {operator : Symbol} {operand : Expr}
    (block : Block nodes root (.unary operator operand) parent side index) :
    Block nodes root operand (some index) .left (index + 1) :=
  prefix_drop_of_cons block

theorem Block.lhs {operator : Symbol} {lhs rhs : Expr}
    (block : Block nodes root (.binary operator lhs rhs) parent side index) :
    Block nodes root lhs (some index) .left (index + 1) :=
  (List.prefix_append _ _).trans (prefix_drop_of_cons block)

theorem Block.rhs {operator : Symbol} {lhs rhs : Expr}
    (block : Block nodes root (.binary operator lhs rhs) parent side index) :
    Block nodes root rhs (some index) .right (index + 1 + lhs.size) := by
  have operands : layout lhs (some index) root .left (index + 1) ++
      layout rhs (some index) root .right (index + 1 + lhs.size) <+: nodes.drop (index + 1) :=
    prefix_drop_of_cons block
  have after := prefix_drop_of_append operands
  rwa [length_layout] at after

/-- A block lists the subexpressions of its expression. -/
theorem map_expr_layout (expr : Expr) (parent : Option Nat) (root : Nat) (side : Side)
    (index : Nat) : (layout expr parent root side index).map Node.expr = expr.preOrder := by
  induction expr generalizing parent side index with
  | atom symbol => rfl
  | unary operator operand ih => rw [layout, List.map_cons, ih, Expr.preOrder]
  | binary operator lhs rhs ihl ihr =>
      rw [layout, List.map_cons, List.map_append, ihl, ihr, Expr.preOrder]

/-- Every node of a block begins a block, and is an operand of a node before it in the block unless
it is the first. -/
theorem Block.exists_of_le (block : Block nodes root expr parent side index) {place : Nat}
    (least : index ≤ place) (most : place < index + expr.size) :
    ∃ part above beside, Block nodes root part above beside place ∧
      ((place = index ∧ above = parent ∧ beside = side) ∨
        ∃ operation, operation < place ∧ above = some operation ∧
          Below nodes root operation beside place) := by
  induction expr generalizing parent side index with
  | atom symbol =>
      rw [Expr.size] at most
      obtain rfl : place = index := by omega
      exact ⟨_, parent, side, block, .inl ⟨rfl, rfl, rfl⟩⟩
  | unary operator operand ih =>
      rcases Nat.eq_or_lt_of_le least with rfl | later
      · exact ⟨_, parent, side, block, .inl ⟨rfl, rfl, rfl⟩⟩
      · rw [Expr.size] at most
        rcases ih block.operand later (by omega) with
          ⟨part, above, beside, inner, ⟨rfl, rfl, rfl⟩ | deeper⟩
        · exact ⟨part, _, _, inner, .inr ⟨index, later, rfl, _, _, _, 0, block, rfl, by simp⟩⟩
        · exact ⟨part, above, beside, inner, .inr deeper⟩
  | binary operator lhs rhs ihl ihr =>
      rcases Nat.eq_or_lt_of_le least with rfl | later
      · exact ⟨_, parent, side, block, .inl ⟨rfl, rfl, rfl⟩⟩
      · rw [Expr.size] at most
        rcases Nat.lt_or_ge place (index + 1 + lhs.size) with left | right
        · rcases ihl block.lhs later left with
            ⟨part, above, beside, inner, ⟨rfl, rfl, rfl⟩ | deeper⟩
          · exact ⟨part, _, _, inner, .inr ⟨index, later, rfl, _, _, _, 0, block, rfl, by simp⟩⟩
          · exact ⟨part, above, beside, inner, .inr deeper⟩
        · rcases ihr block.rhs right (by omega) with
            ⟨part, above, beside, inner, ⟨rfl, rfl, rfl⟩ | deeper⟩
          · exact ⟨part, _, _, inner, .inr ⟨index, later, rfl, _, _, _, 1, block, rfl, by simp⟩⟩
          · exact ⟨part, above, beside, inner, .inr deeper⟩

/-- The operands of the first node of a block begin blocks of their own. -/
theorem Block.of_operand (block : Block nodes root expr parent side index) {position operand : Nat}
    (stands : (operandIndices index expr)[position]? = some operand) :
    index < operand ∧ ∃ part beside, expr.operands[position]? = some part ∧
      Block nodes root part (some index) beside operand := by
  cases expr with
  | atom symbol => cases stands
  | unary operator argument =>
      match position with
      | 0 =>
          cases stands
          exact ⟨by omega, _, _, rfl, block.operand⟩
  | binary operator lhs rhs =>
      match position with
      | 0 =>
          cases stands
          exact ⟨by omega, _, _, rfl, block.lhs⟩
      | 1 =>
          cases stands
          exact ⟨by omega, _, _, rfl, block.rhs⟩

theorem length_operandIndices (index : Nat) (expr : Expr) :
    (operandIndices index expr).length = expr.operands.length := by
  cases expr with
  | atom symbol => rfl
  | unary operator operand => rfl
  | binary operator lhs rhs => rfl

theorem nodup_operandIndices (index : Nat) (expr : Expr) : (operandIndices index expr).Nodup := by
  cases expr with
  | atom symbol => exact List.nodup_nil
  | unary operator operand => exact List.pairwise_singleton _ _
  | binary operator lhs rhs =>
      have apart := lhs.size_pos
      simp only [operandIndices, List.nodup_cons, List.mem_singleton, List.not_mem_nil,
        not_false_eq_true, List.nodup_nil, and_true]
      omega

end Node

namespace Chain

/-! ## Steps -/

section

variable {index : Nat} {expressions : List Expr}

theorem length_starts (index : Nat) (expressions : List Expr) :
    (starts index expressions).length = expressions.length := by
  induction expressions generalizing index with
  | nil => rfl
  | cons expr rest ih => rw [starts, List.length_cons, List.length_cons, ih]

/-- A step is a block at its start, and the next step or the end comes right after it. -/
theorem block_of_starts {step start : Nat}
    (begins : (starts index expressions)[step]? = some start) :
    ∃ expr, expressions[step]? = some expr ∧
      Node.layout expr none start .left start <+: (arena index expressions).drop (start - index) ∧
      index ≤ start ∧ ((starts index expressions)[step + 1]?).getD
        (index + (arena index expressions).length) = start + expr.size := by
  induction expressions generalizing index step with
  | nil => cases begins
  | cons expr rest ih =>
      cases step with
      | zero =>
          cases begins
          refine ⟨expr, rfl, ?_, Nat.le_refl _, ?_⟩
          · rw [Nat.sub_self, List.drop_zero, arena]
            exact List.prefix_append _ _
          · rw [arena, List.length_append, Node.length_layout]
            cases rest with
            | nil => rfl
            | cons next others => rfl
      | succ step =>
          rcases ih begins with ⟨part, found, block, least, next⟩
          refine ⟨part, found, ?_, by omega, ?_⟩
          · have later : start - index = expr.size + (start - (index + expr.size)) := by omega
            rw [later, arena, ← List.drop_drop, List.drop_left' (Node.length_layout ..)]
            exact block
          · rw [arena, List.length_append, Node.length_layout, ← Nat.add_assoc]
            exact next

theorem pairwise_starts (index : Nat) (expressions : List Expr) :
    (starts index expressions).Pairwise (· < ·) ∧
      ∀ start ∈ starts index expressions, index ≤ start := by
  induction expressions generalizing index with
  | nil => exact ⟨.nil, fun start mem => nomatch mem⟩
  | cons expr rest ih =>
      rcases ih (index + expr.size) with ⟨sorted, least⟩
      have positive := expr.size_pos
      refine ⟨List.pairwise_cons.2 ⟨fun start mem => ?_, sorted⟩, fun start mem => ?_⟩
      · have later := least start mem
        omega
      · rcases List.mem_cons.1 mem with rfl | later
        · exact Nat.le_refl _
        · exact Nat.le_trans (Nat.le_add_right _ _) (least start later)

/-- Every index of the nodes of the steps belongs to one of the steps. -/
theorem exists_step {place : Nat} (least : index ≤ place)
    (most : place < index + (arena index expressions).length) :
    ∃ (step start : Nat) (expr : Expr), (starts index expressions)[step]? = some start ∧
      expressions[step]? = some expr ∧ start ≤ place ∧ place < start + expr.size := by
  induction expressions generalizing index with
  | nil => exact absurd most (Nat.not_lt.2 least)
  | cons expr rest ih =>
      rw [arena, List.length_append, Node.length_layout] at most
      rcases Nat.lt_or_ge place (index + expr.size) with here | later
      · exact ⟨0, index, expr, rfl, rfl, least, here⟩
      · rcases ih later (by omega) with ⟨step, start, part, begins, found, before, after⟩
        exact ⟨step + 1, start, part, begins, found, before, after⟩

end

/-- The index after the nodes of a step, where the next step begins if there is one. -/
def stop (chain : Chain) (step : Nat) : Nat := (chain.roots[step + 1]?).getD chain.nodes.length

/-- How the nodes of a chain and their indices reflect the expressions of its steps.  A step has the
nodes from its root on, up to the root of the next step or else to the last node. -/
structure Laid (chain : Chain) : Prop where
  /-- There is one root for the beginning and one for each link. -/
  length_roots : chain.roots.length = chain.links.length + 1
  /-- The first node of all is the root of the beginning. -/
  beginning : chain.roots[0]? = some 0 ∧
    ∃ node, chain.nodes[0]? = some node ∧ node.expr = chain.beginning
  /-- The roots after the first are those of the links. -/
  links : ∀ (step : Nat) (link : Link), chain.links[step]? = some link →
    ∃ (root : Nat) (node : Node), chain.roots[step + 1]? = some root ∧
      chain.nodes[root]? = some node ∧ node.expr = link.target
  sorted : chain.roots.Pairwise (· < ·)
  /-- Every node belongs to a step. -/
  covered : ∀ index, index < chain.nodes.length →
    ∃ step root : Nat, chain.roots[step]? = some root ∧ root ≤ index ∧ index < chain.stop step
  /-- A step has one node for each subexpression of its expression. -/
  stop_eq : ∀ (step root : Nat) (expr : Expr), chain.roots[step]? = some root →
    chain.expressions[step]? = some expr → chain.stop step = root + expr.preOrder.length
  /-- The nodes of a step are in pre-order. -/
  preOrder : ∀ (step root : Nat) (expr : Expr), chain.roots[step]? = some root →
    chain.expressions[step]? = some expr →
    ((chain.nodes.take (chain.stop step)).drop root).map Node.expr = expr.preOrder
  /-- The nodes of a step know its root. -/
  root : ∀ (step root index : Nat) (node : Node), chain.roots[step]? = some root → root ≤ index →
    index < chain.stop step → chain.nodes[index]? = some node → node.root = root
  /-- A node has as many operands as its expression. -/
  length_operands : ∀ node ∈ chain.nodes, node.operands.length = node.expr.operands.length
  /-- The operands of a node come after it, are those of its expression, and know it. -/
  operands : ∀ (index : Nat) (node : Node) (position operand : Nat),
    chain.nodes[index]? = some node → node.operands[position]? = some operand → index < operand ∧
      ∃ below, chain.nodes[operand]? = some below ∧
        node.expr.operands[position]? = some below.expr ∧ below.parent = some index
  /-- The operation that a node knows has it as an operand once. -/
  parent : ∀ (index : Nat) (node : Node) (operation : Nat), chain.nodes[index]? = some node →
    node.parent = some operation →
    ∃ above, chain.nodes[operation]? = some above ∧ above.operands.count index = 1
  /-- The roots of steps are the nodes that are no operands. -/
  parent_eq_none : ∀ (index : Nat) (node : Node), chain.nodes[index]? = some node →
    (node.parent = none ↔ index ∈ chain.roots)
  /-- The nodes on the right are the second operands of operations with two operands. -/
  side : ∀ (index : Nat) (node : Node), chain.nodes[index]? = some node →
    (node.side = .right ↔ ∃ operation above operator lhs rhs, node.parent = some operation ∧
      chain.nodes[operation]? = some above ∧ above.expr = .binary operator lhs rhs ∧
      above.operands[1]? = some index)

namespace Intact

variable {nextId : ChainId} {chain : Chain}

/-- The nodes of a step are a block at its root. -/
theorem block (intact : chain.Intact nextId) {step root : Nat}
    (begins : chain.roots[step]? = some root) :
    ∃ expr, chain.expressions[step]? = some expr ∧
      Node.Block (chain.nodes.map Node.bare) root expr none .left root ∧
      chain.stop step = root + expr.size := by
  rw [intact.roots] at begins
  rcases block_of_starts begins with ⟨expr, found, block, -, next⟩
  refine ⟨expr, found, ?_, ?_⟩
  · rw [Node.Block, intact.nodes]
    exact block
  · rw [stop, intact.roots, ← intact.length_arena]
    rwa [Nat.zero_add] at next

/-- A node belongs to a step, begins a block there, and is the root of the step or the operand of a
node before it. -/
theorem exists_part (intact : chain.Intact nextId) {index : Nat} {node : Node}
    (here : chain.nodes[index]? = some node) :
    ∃ (step root : Nat) (part : Expr) (above : Option Nat) (beside : Side),
      chain.roots[step]? = some root ∧ root ≤ index ∧ index < chain.stop step ∧
      Node.Block (chain.nodes.map Node.bare) root part above beside index ∧
      node.bare = Node.first part above root beside index ∧
      ((index = root ∧ above = none ∧ beside = .left) ∨
        ∃ operation, operation < index ∧ above = some operation ∧
          Node.Below (chain.nodes.map Node.bare) root operation beside index) := by
  have inside : index < 0 + (arena 0 chain.expressions).length := by
    rw [Nat.zero_add, intact.length_arena]
    exact (List.getElem?_eq_some_iff.1 here).1
  rcases exists_step (Nat.zero_le index) inside with
    ⟨step, root, expr, begins, found, least, most⟩
  rw [← intact.roots] at begins
  rcases intact.block begins with ⟨expr', found', whole, stop⟩
  cases Option.some.inj (found.symm.trans found')
  rcases whole.exists_of_le least most with ⟨part, above, beside, block, standing⟩
  exact ⟨step, root, part, above, beside, begins, least, stop ▸ most, block, block.bare_eq here,
    standing⟩

/-- The nodes of a step have the subexpressions of its expression, in pre-order. -/
theorem map_expr_step (intact : chain.Intact nextId) {step root : Nat} {expr : Expr}
    (begins : chain.roots[step]? = some root) (stands : chain.expressions[step]? = some expr) :
    ((chain.nodes.take (chain.stop step)).drop root).map Node.expr = expr.preOrder := by
  rcases intact.block begins with ⟨expr', found, block, stop⟩
  cases Option.some.inj (stands.symm.trans found)
  have bare : ((chain.nodes.map Node.bare).drop root).take expr.size =
      Node.layout expr none root .left root := by
    rcases block with ⟨rest, same⟩
    rw [← same, List.take_left' (Node.length_layout ..)]
  calc ((chain.nodes.take (chain.stop step)).drop root).map Node.expr
    _ = ((chain.nodes.drop root).take expr.size).map Node.expr := by
      rw [stop, List.drop_take, Nat.add_sub_cancel_left]
    _ = (((chain.nodes.map Node.bare).drop root).take expr.size).map Node.expr := by
      rw [List.map_take, List.map_take, List.map_drop, List.map_drop, List.map_map]
      rfl
    _ = expr.preOrder := by rw [bare, Node.map_expr_layout]

/-- A node knows the indices of its operands, of which there are as many as in its expression. -/
theorem operands_eq (intact : chain.Intact nextId) {index : Nat} {node : Node}
    (here : chain.nodes[index]? = some node) :
    node.operands = Node.operandIndices index node.expr := by
  rcases intact.exists_part here with ⟨_, root, part, _, _, -, -, -, -, bare, -⟩
  have expr : node.expr = part := congrArg Node.expr bare
  rw [expr]
  exact congrArg Node.operands bare

/-- An operand of a node comes after it, is that of its expression, and knows it. -/
theorem exists_operand (intact : chain.Intact nextId) {index position operand : Nat} {node : Node}
    (here : chain.nodes[index]? = some node) (stands : node.operands[position]? = some operand) :
    index < operand ∧ ∃ below, chain.nodes[operand]? = some below ∧
      node.expr.operands[position]? = some below.expr ∧ below.parent = some index := by
  rw [intact.operands_eq here] at stands
  rcases intact.exists_part here with ⟨_, root, part, _, _, -, -, -, block, bare, -⟩
  have expr : node.expr = part := congrArg Node.expr bare
  rw [expr] at stands ⊢
  rcases block.of_operand stands with ⟨later, argument, side, argued, inner⟩
  rcases inner.exists_node with ⟨below, there, bare'⟩
  refine ⟨later, below, there, ?_, congrArg Node.parent bare'⟩
  exact argued.trans (congrArg some (congrArg Node.expr bare').symm)

/-- The operation that a node knows has it as an operand, and as the second one exactly if the node
stands on the right. -/
theorem exists_operation (intact : chain.Intact nextId) {index operation : Nat} {node : Node}
    (here : chain.nodes[index]? = some node) (known : node.parent = some operation) :
    ∃ above position, chain.nodes[operation]? = some above ∧
      above.operands[position]? = some index ∧ (node.side = .right ↔ position = 1) := by
  rcases intact.exists_part here with ⟨_, root, part, above, beside, -, -, -, -, bare, standing⟩
  have parent : node.parent = above := congrArg Node.parent bare
  have side : node.side = beside := congrArg Node.side bare
  rcases standing with ⟨-, rfl, -⟩ | ⟨operation', -, rfl, below⟩
  · cases known.symm.trans parent
  · cases known.symm.trans parent
    rcases below with ⟨whole, _, _, position, block, stands, right⟩
    rcases block.exists_node with ⟨above, there, bare'⟩
    have operands : above.operands = Node.operandIndices operation whole :=
      congrArg Node.operands bare'
    exact ⟨above, position, there, operands ▸ stands, side ▸ right⟩

/-- The roots of steps are the nodes that are no operands. -/
theorem parent_eq_none_iff (intact : chain.Intact nextId) {index : Nat} {node : Node}
    (here : chain.nodes[index]? = some node) : node.parent = none ↔ index ∈ chain.roots := by
  rcases intact.exists_part here with
    ⟨step, root, part, above, beside, begins, -, -, -, bare, standing⟩
  have parent : node.parent = above := congrArg Node.parent bare
  constructor
  · intro alone
    rcases standing with ⟨rfl, -, -⟩ | ⟨operation, -, rfl, -⟩
    · exact List.mem_of_getElem? begins
    · cases alone.symm.trans parent
  · intro mem
    rcases List.mem_iff_getElem?.1 mem with ⟨step', begins'⟩
    rcases intact.block begins' with ⟨expr, -, block, -⟩
    exact congrArg Node.parent (block.bare_eq here)

/-- The nodes on the right are the second operands of operations with two operands. -/
theorem side_eq_right_iff (intact : chain.Intact nextId) {index : Nat} {node : Node}
    (here : chain.nodes[index]? = some node) :
    node.side = .right ↔ ∃ operation above operator lhs rhs, node.parent = some operation ∧
      chain.nodes[operation]? = some above ∧ above.expr = .binary operator lhs rhs ∧
      above.operands[1]? = some index := by
  cases known : node.parent with
  | none =>
      have side := intact.side_of_isRoot (List.mem_of_getElem? here) known
      rw [side]
      constructor
      · intro other
        cases other
      · rintro ⟨operation, above, operator, lhs, rhs, none, -⟩
        cases none
  | some operation =>
      rcases intact.exists_operation here known with ⟨above, position, there, stands, right⟩
      have operands := intact.operands_eq there
      rw [right]
      constructor
      · rintro rfl
        cases whole : above.expr with
        | atom symbol =>
            rw [operands, whole] at stands
            cases stands
        | unary operator operand =>
            rw [operands, whole] at stands
            cases stands
        | binary operator lhs rhs =>
            exact ⟨operation, above, operator, lhs, rhs, rfl, there, whole, stands⟩
      · rintro ⟨_, other, operator, lhs, rhs, same, there', -, second⟩
        cases same
        cases Option.some.inj (there.symm.trans there')
        rw [operands] at stands second
        have bound := (List.getElem?_eq_some_iff.1 stands).1
        exact (List.getElem?_inj bound (Node.nodup_operandIndices _ _)).1 (stands.trans second.symm)

/-- What the nodes know of each other is what the expressions say. -/
theorem laid (intact : chain.Intact nextId) : chain.Laid where
  length_roots := by
    rw [intact.roots, length_starts, expressions, List.length_cons, List.length_map]
  beginning := by
    have begins : chain.roots[0]? = some 0 := by
      rw [intact.roots]
      rfl
    rcases intact.block begins with ⟨expr, found, block, -⟩
    cases found
    rcases block.exists_node with ⟨node, here, bare⟩
    exact ⟨begins, node, here, congrArg Node.expr bare⟩
  links step link listed := by
    have target : chain.expressions[step + 1]? = some link.target := by
      rw [expressions, List.getElem?_cons_succ, List.getElem?_map, listed]
      rfl
    have inside : step + 1 < chain.roots.length := by
      rw [intact.roots, length_starts]
      exact (List.getElem?_eq_some_iff.1 target).1
    have begins := List.getElem?_eq_getElem inside
    rcases intact.block begins with ⟨expr, found, block, -⟩
    cases Option.some.inj (target.symm.trans found)
    rcases block.exists_node with ⟨node, here, bare⟩
    exact ⟨_, node, begins, here, congrArg Node.expr bare⟩
  sorted := by
    rw [intact.roots]
    exact (pairwise_starts 0 chain.expressions).1
  covered index inside := by
    rcases exists_part intact (List.getElem?_eq_getElem inside) with
      ⟨step, root, _, _, _, begins, least, most, -⟩
    exact ⟨step, root, begins, least, most⟩
  stop_eq step root expr begins stands := by
    rcases intact.block begins with ⟨expr', found, block, stop⟩
    cases Option.some.inj (stands.symm.trans found)
    rw [stop, ← Node.map_expr_layout expr none root .left root, List.length_map,
      Node.length_layout]
  preOrder step root expr begins stands := intact.map_expr_step begins stands
  root step root index node begins least most here := by
    rcases intact.block begins with ⟨expr, -, whole, stop⟩
    rw [stop] at most
    rcases whole.exists_of_le least most with ⟨part, above, beside, block, -⟩
    exact congrArg Node.root (block.bare_eq here)
  length_operands node mem := by
    rcases List.mem_iff_getElem?.1 mem with ⟨index, here⟩
    rw [intact.operands_eq here, Node.length_operandIndices]
  operands index node position operand here stands := intact.exists_operand here stands
  parent index node operation here known := by
    rcases intact.exists_operation here known with ⟨above, position, there, stands, -⟩
    refine ⟨above, there, List.count_eq_one_of_mem ?_ (List.mem_of_getElem? stands)⟩
    rw [intact.operands_eq there]
    exact Node.nodup_operandIndices _ _
  parent_eq_none index node here := intact.parent_eq_none_iff here
  side index node here := intact.side_eq_right_iff here

end Intact

end Chain

/-- Whatever is done from an empty workspace on, the nodes of every chain reflect its steps, in the
document and outside it. -/
theorem Workspace.exists_run_laid (nextId : ChainId) (operations : List Operation) :
    ∃ workspace, ({ nextId } : Workspace).run operations = .ok workspace ∧
      ∀ chain, chain ∈ workspace.session.document.chains ∨ chain ∈ workspace.loose →
        chain.Laid := by
  rcases (settled_empty nextId).exists_run operations with ⟨workspace, ran, settled⟩
  refine ⟨workspace, ran, fun chain known => ?_⟩
  rcases known with listed | loose
  · exact (settled.session.intact.chains chain listed).laid
  · exact (settled.loose chain loose).1.laid

end Calculation
