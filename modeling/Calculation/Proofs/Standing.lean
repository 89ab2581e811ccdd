import Calculation.Proofs.Layout
import Calculation.Proofs.Way

/-!
Which subexpression a node is that of, and what its place says about the expressions.

Every node is that of a subexpression of a step, known by the way that leads to it from the
expression of the step (`Document.Stands`), and no two ways or steps share a node.  So what sessions
read off the indices in the nodes can be said of expressions.

* `Document.Intact.node?_eq_some_iff_stands`: the nodes are those of the subexpressions.
* `Document.Intact.operandOf_iff`: the operation and the side that a node knows are those of its
  subexpression.
* `Document.Intact.beside_iff`: nodes of one operation are those of its two operands.
-/

namespace Calculation

namespace Node

variable {nodes : List Node} {root index : Nat} {expr operand part : Expr} {parent : Option Nat}
  {side beside : Side} {way : Way}

/-- The operands of an expression are blocks behind its own node. -/
theorem Block.of_operandOn? (block : Block nodes root expr parent side index)
    (stands : expr.operandOn? beside = some operand) :
    Block nodes root operand (some index) beside (index + expr.offset beside) := by
  cases expr with
  | atom symbol => cases beside <;> cases stands
  | unary operator argument =>
      cases beside with
      | left =>
          cases stands
          exact block.operand
      | right => cases stands
  | binary operator lhs rhs =>
      cases beside with
      | left =>
          cases stands
          exact block.lhs
      | right =>
          cases stands
          rw [Expr.offset, ← Nat.add_assoc]
          exact block.rhs

/-- A node knows the indices of its operands, side by side. -/
theorem operandIndices_eq (index : Nat) (expr : Expr) :
    operandIndices index expr = [Side.left, .right].filterMap fun side =>
      (expr.operandOn? side).map fun _ => index + expr.offset side := by
  cases expr with
  | atom symbol => rfl
  | unary operator argument => rfl
  | binary operator lhs rhs => simp [operandIndices, Expr.operandOn?, Expr.offset, Nat.add_assoc]

/-- Every subexpression is a block. -/
theorem Block.of_part? (block : Block nodes root expr parent side index)
    (leads : expr.part? way = some part) :
    ∃ above beside, Block nodes root part above beside (index + expr.rank way) := by
  induction way generalizing expr parent side index with
  | nil =>
      cases leads
      exact ⟨parent, side, block⟩
  | cons beside way ih =>
      obtain ⟨operand, stands, later⟩ := Expr.exists_operandOn? leads
      rw [Expr.rank_cons stands, ← Nat.add_assoc]
      exact ih (block.of_operandOn? stands) later

/-- A subexpression is a block below the operation that it is an operand of. -/
theorem Block.of_part?_concat (block : Block nodes root expr parent side index)
    (leads : expr.part? (way ++ [beside]) = some part) :
    Block nodes root part (some (index + expr.rank way)) beside
      (index + expr.rank (way ++ [beside])) := by
  rw [Expr.part?_concat] at leads
  obtain ⟨whole, before, stands⟩ := Option.bind_eq_some_iff.1 leads
  obtain ⟨above, side, inner⟩ := block.of_part? before
  rw [Expr.rank_append before, Expr.rank_cons stands, Expr.rank, Nat.add_zero, ← Nat.add_assoc]
  exact inner.of_operandOn? stands

end Node

namespace Chain

variable {nextId : ChainId} {chain : Chain} {index index' step step' : Nat} {way way' : Way}
  {side : Side} {part part' : Expr} {node : Node}

/-- The node at the index is that of the subexpression that the way leads to in a step, counted from
the beginning. -/
def Stands (chain : Chain) (index step : Nat) (way : Way) (part : Expr) : Prop :=
  ∃ root expr, chain.roots[step]? = some root ∧ chain.expressions[step]? = some expr ∧
    expr.part? way = some part ∧ index = root + expr.rank way

/-- Step and way lead to one node and one subexpression. -/
theorem Stands.eq (stands : chain.Stands index step way part)
    (stands' : chain.Stands index' step way part') : index = index' ∧ part = part' := by
  obtain ⟨root, expr, begins, found, leads, rfl⟩ := stands
  obtain ⟨root', expr', begins', found', leads', rfl⟩ := stands'
  cases Option.some.inj (begins.symm.trans begins')
  cases Option.some.inj (found.symm.trans found')
  exact ⟨rfl, Option.some.inj (leads.symm.trans leads')⟩

/-- What a way leads on to is an operand of what it leads to. -/
theorem Stands.exists_above (stands : chain.Stands index step (way ++ [side]) part) :
    ∃ operation whole, chain.Stands operation step way whole ∧
      whole.operandOn? side = some part := by
  obtain ⟨root, expr, begins, found, leads, -⟩ := stands
  rw [Expr.part?_concat] at leads
  obtain ⟨whole, before, operand⟩ := Option.bind_eq_some_iff.1 leads
  exact ⟨_, whole, ⟨root, expr, begins, found, before, rfl⟩, operand⟩

/-- What an operation has as an operand is found behind it. -/
theorem Stands.operand (stands : chain.Stands index step way part)
    (operand : part.operandOn? side = some part') :
    chain.Stands (index + part.offset side) step (way ++ [side]) part' := by
  obtain ⟨root, expr, begins, found, leads, rfl⟩ := stands
  refine ⟨root, expr, begins, found, ?_, ?_⟩
  · rw [Expr.part?_concat, leads, Option.bind_some, operand]
  · rw [Expr.rank_append leads, Expr.rank_cons operand, Expr.rank, Nat.add_zero, Nat.add_assoc]

namespace Intact

/-- A node that is that of a subexpression has its expression, and knows its step. -/
theorem exists_of_stands (intact : chain.Intact nextId)
    (stands : chain.Stands index step way part) :
    ∃ node, chain.nodes[index]? = some node ∧ node.expr = part ∧
      chain.roots[step]? = some node.root := by
  obtain ⟨root, expr, begins, found, leads, rfl⟩ := stands
  obtain ⟨expr', found', block, -⟩ := intact.block begins
  cases Option.some.inj (found.symm.trans found')
  obtain ⟨above, beside, inner⟩ := block.of_part? leads
  obtain ⟨node, here, bare⟩ := inner.exists_node
  refine ⟨node, here, congrArg Node.expr bare, ?_⟩
  rw [begins, show node.root = root from congrArg Node.root bare]

/-- Every node is that of a subexpression. -/
theorem exists_stands (intact : chain.Intact nextId) (here : chain.nodes[index]? = some node) :
    ∃ step way, chain.Stands index step way node.expr := by
  have inside : index < 0 + (arena 0 chain.expressions).length := by
    rw [Nat.zero_add, intact.length_arena]
    exact (List.getElem?_eq_some_iff.1 here).1
  obtain ⟨step, root, expr, begins, found, least, most⟩ := exists_step (Nat.zero_le index) inside
  rw [← intact.roots] at begins
  have offset : index - root < expr.size := by omega
  obtain ⟨way, part, leads, ranked⟩ := Expr.exists_rank_eq offset
  have stands : chain.Stands index step way part :=
    ⟨root, expr, begins, found, leads, by omega⟩
  obtain ⟨node', here', rfl, -⟩ := intact.exists_of_stands stands
  cases Option.some.inj (here.symm.trans here')
  exact ⟨step, way, stands⟩

/-- A node is that of one subexpression only. -/
theorem eq_of_stands (intact : chain.Intact nextId) (stands : chain.Stands index step way part)
    (stands' : chain.Stands index step' way' part') : step = step' ∧ way = way' := by
  obtain ⟨node, here, -, root⟩ := intact.exists_of_stands stands
  obtain ⟨node', here', -, root'⟩ := intact.exists_of_stands stands'
  cases Option.some.inj (here.symm.trans here')
  have nodup : chain.roots.Nodup := intact.laid.sorted.imp fun before => Nat.ne_of_lt before
  have bound := (List.getElem?_eq_some_iff.1 root).1
  have sameStep : step = step' := (List.getElem?_inj bound nodup).1 (root.trans root'.symm)
  subst sameStep
  obtain ⟨start, expr, begins, found, leads, same⟩ := stands
  obtain ⟨start', expr', begins', found', leads', same'⟩ := stands'
  cases Option.some.inj (begins.symm.trans begins')
  cases Option.some.inj (found.symm.trans found')
  exact ⟨rfl, Expr.eq_of_rank_eq leads leads' (by omega)⟩

/-- The expression of a step is no operand. -/
theorem parent_of_stands_nil (intact : chain.Intact nextId)
    (stands : chain.Stands index step [] part) (here : chain.nodes[index]? = some node) :
    node.parent = none := by
  obtain ⟨root, expr, begins, -, -, rfl⟩ := stands
  exact (intact.parent_eq_none_iff here).2 (List.mem_of_getElem? begins)

/-- An operand knows its operation and its side. -/
theorem exists_operation_of_stands (intact : chain.Intact nextId)
    (stands : chain.Stands index step (way ++ [side]) part)
    (here : chain.nodes[index]? = some node) :
    node.side = side ∧ ∃ operation whole, node.parent = some operation ∧
      chain.Stands operation step way whole := by
  obtain ⟨operation, whole, above, -⟩ := stands.exists_above
  obtain ⟨root, expr, begins, found, before, rfl⟩ := above
  obtain ⟨root', expr', begins', found', leads, rfl⟩ := stands
  cases Option.some.inj (begins.symm.trans begins')
  cases Option.some.inj (found.symm.trans found')
  obtain ⟨expr', found', block, -⟩ := intact.block begins
  cases Option.some.inj (found.symm.trans found')
  have bare := (block.of_part?_concat leads).bare_eq here
  exact ⟨congrArg Node.side bare, _, whole, congrArg Node.parent bare,
    root, expr, begins, found, before, rfl⟩

end Intact

end Chain

namespace Document

variable {nextId : ChainId} {document : Document} {node other operation : NodeId}
  {found found' : Node} {part part' : Expr} {step step' : Nat} {way way' : Way} {side : Side}

/-- The node is that of the subexpression that the way leads to in a step of its chain. -/
def Stands (document : Document) (node : NodeId) (step : Nat) (way : Way) (part : Expr) : Prop :=
  ∃ chain, document.find? node.chain = some chain ∧ chain.Stands node.index step way part

/-- The node is that of the operand that an operation has on the side. -/
def OperandOf (document : Document) (node operation : NodeId) (side : Side) : Prop :=
  node.chain = operation.chain ∧ ∃ step way part whole,
    document.Stands operation step way whole ∧ document.Stands node step (way ++ [side]) part

/-- The nodes are those of the two operands of a binary operation. -/
def Beside (document : Document) (node other : NodeId) : Prop :=
  ∃ operation side, (∃ step way operator lhs rhs,
      document.Stands operation step way (.binary operator lhs rhs)) ∧
    document.OperandOf node operation side ∧ document.OperandOf other operation side.other

namespace Intact

theorem exists_of_stands (intact : document.Intact nextId)
    (stands : document.Stands node step way part) :
    ∃ found, document.node? node = some found ∧ found.expr = part := by
  obtain ⟨chain, listed, stands⟩ := stands
  have whole := intact.chains chain (mem_of_find? listed).1
  obtain ⟨found, here, expr, -⟩ := whole.exists_of_stands stands
  refine ⟨found, ?_, expr⟩
  rw [node?_eq, listed, Option.bind_some, here]

/-- The nodes of a document are those of the subexpressions of its steps. -/
theorem node?_eq_some_iff_stands (intact : document.Intact nextId) :
    (∃ found, document.node? node = some found ∧ found.expr = part) ↔
      ∃ step way, document.Stands node step way part := by
  constructor
  · intro stored
    obtain ⟨found, known, rfl⟩ := stored
    obtain ⟨chain, listed, -, -, -, here⟩ := exists_owner known
    have whole := intact.chains chain (mem_of_find? listed).1
    obtain ⟨step, way, stands⟩ := whole.exists_stands here
    exact ⟨step, way, chain, listed, stands⟩
  · intro standing
    obtain ⟨step, way, stands⟩ := standing
    exact intact.exists_of_stands stands

/-- A node is that of one subexpression only. -/
theorem eq_of_stands (intact : document.Intact nextId)
    (stands : document.Stands node step way part)
    (stands' : document.Stands node step' way' part') : step = step' ∧ way = way' := by
  obtain ⟨chain, listed, here⟩ := stands
  obtain ⟨chain', listed', there⟩ := stands'
  cases Option.some.inj (listed.symm.trans listed')
  exact (intact.chains chain (mem_of_find? listed).1).eq_of_stands here there

/-- The way to an operand goes on from the way to its operation. -/
theorem way_eq_of_operandOf (intact : document.Intact nextId)
    (stands : document.Stands node step way part)
    (stands' : document.Stands operation step' way' part')
    (operand : document.OperandOf node operation side) : step = step' ∧ way = way' ++ [side] := by
  obtain ⟨-, start, above, _, _, here, there⟩ := operand
  obtain ⟨rfl, rfl⟩ := intact.eq_of_stands there stands
  obtain ⟨rfl, rfl⟩ := intact.eq_of_stands here stands'
  exact ⟨rfl, rfl⟩

/-- The operation that a node knows, and the side where it stands there, are those of its
subexpression. -/
theorem operandOf_iff (intact : document.Intact nextId)
    (known : document.node? node = some found) :
    document.OperandOf node operation side ↔
      node.chain = operation.chain ∧ found.parent = some operation.index ∧ found.side = side := by
  obtain ⟨chain, listed, -, -, -, here⟩ := exists_owner known
  have whole := intact.chains chain (mem_of_find? listed).1
  constructor
  · intro operand
    obtain ⟨sameChain, step, way, part, expr, ⟨_, listedAbove, above⟩, _, listedBelow, below⟩ :=
      operand
    cases Option.some.inj (listed.symm.trans listedBelow)
    rw [← sameChain] at listedAbove
    cases Option.some.inj (listed.symm.trans listedAbove)
    obtain ⟨beside, index, expr', parent, above'⟩ := whole.exists_operation_of_stands below here
    exact ⟨sameChain, parent.trans (congrArg some (above'.eq above).1), beside⟩
  · intro knows
    obtain ⟨sameChain, parent, rfl⟩ := knows
    obtain ⟨step, way, stands⟩ := whole.exists_stands here
    rcases way.eq_nil_or_concat' with rfl | ⟨way, side, rfl⟩
    · cases (whole.parent_of_stands_nil stands here).symm.trans parent
    · obtain ⟨rfl, index, expr, parent', above⟩ := whole.exists_operation_of_stands stands here
      cases parent.symm.trans parent'
      exact ⟨sameChain, step, way, found.expr, expr, ⟨chain, sameChain ▸ listed, above⟩,
        ⟨chain, listed, stands⟩⟩

/-- An operation and its operands belong to one step. -/
theorem root_eq_of_operandOf (intact : document.Intact nextId)
    (operand : document.OperandOf node operation side)
    (known : document.node? node = some found) (known' : document.node? operation = some found') :
    found.root = found'.root := by
  obtain ⟨sameChain, step, way, part, whole, ⟨chain, listed, above⟩, ⟨chain', listed', below⟩⟩ :=
    operand
  rw [sameChain, listed] at listed'
  cases listed'
  have shape := intact.chains chain (mem_of_find? listed).1
  rw [node?_eq, listed, Option.bind_some] at known'
  rw [node?_eq, sameChain, listed, Option.bind_some] at known
  obtain ⟨below', here, -, root⟩ := shape.exists_of_stands below
  obtain ⟨above', there, -, root'⟩ := shape.exists_of_stands above
  cases Option.some.inj (here.symm.trans known)
  cases Option.some.inj (there.symm.trans known')
  exact Option.some.inj (root.symm.trans root')

/-- An operand and its operation are in the document. -/
theorem exists_nodes_of_operandOf (intact : document.Intact nextId)
    (operand : document.OperandOf node operation side) :
    (∃ found, document.node? node = some found) ∧
      ∃ found, document.node? operation = some found := by
  obtain ⟨-, step, way, part, whole, above, below⟩ := operand
  obtain ⟨found, known, -⟩ := intact.exists_of_stands below
  obtain ⟨found', known', -⟩ := intact.exists_of_stands above
  exact ⟨⟨found, known⟩, found', known'⟩

/-- No operation is its own operand. -/
theorem ne_of_operandOf (intact : document.Intact nextId)
    (operand : document.OperandOf node operation side) : node ≠ operation := by
  intro same
  subst same
  obtain ⟨-, step, way, part, whole, above, below⟩ := operand
  obtain ⟨-, same⟩ := intact.eq_of_stands above below
  have length := congrArg List.length same
  rw [List.length_append, List.length_singleton] at length
  omega

/-- A node is that of an operand of an operation if it knows the operation and belongs to its
step. -/
theorem exists_operandOf_iff (intact : document.Intact nextId)
    (known : document.node? node = some found) (known' : document.node? operation = some found') :
    (∃ side, document.OperandOf node operation side) ↔ node ≠ operation ∧
      node.chain = operation.chain ∧ found.root = found'.root ∧
      found.parent = some operation.index := by
  constructor
  · intro operand
    obtain ⟨side, operand⟩ := operand
    obtain ⟨chain, parent, -⟩ := (intact.operandOf_iff known).1 operand
    exact ⟨intact.ne_of_operandOf operand, chain,
      intact.root_eq_of_operandOf operand known known', parent⟩
  · intro knows
    obtain ⟨-, chain, -, parent⟩ := knows
    exact ⟨found.side, (intact.operandOf_iff known).2 ⟨chain, parent, rfl⟩⟩

/-- The operands of an operation are at a distance behind it that its expression tells. -/
theorem operandOf_iff_of_operation (intact : document.Intact nextId)
    (known : document.node? operation = some found) :
    document.OperandOf node operation side ↔ (found.expr.operandOn? side).isSome ∧
      node = ⟨operation.chain, operation.index + found.expr.offset side⟩ := by
  obtain ⟨step, way, chain, listed, stands⟩ := intact.node?_eq_some_iff_stands.1 ⟨found, known, rfl⟩
  constructor
  · intro operand
    obtain ⟨sameChain, start, above, part, whole, whole_stands, ⟨chain', listed', here⟩⟩ := operand
    obtain ⟨rfl, rfl⟩ := intact.eq_of_stands ⟨chain, listed, stands⟩ whole_stands
    rw [sameChain, listed] at listed'
    cases listed'
    obtain ⟨index, expr, there, operand⟩ := here.exists_above
    obtain ⟨-, rfl⟩ := stands.eq there
    refine ⟨Option.isSome_iff_exists.2 ⟨part, operand⟩, NodeId.ext sameChain ?_⟩
    exact (here.eq (stands.operand operand)).1
  · intro stands
    obtain ⟨some, rfl⟩ := stands
    obtain ⟨part, operand⟩ := Option.isSome_iff_exists.1 some
    exact ⟨rfl, step, way, part, found.expr, ⟨chain, listed, stands⟩,
      ⟨chain, listed, stands.operand operand⟩⟩

/-- What has operands on both sides is a binary operation. -/
theorem exists_binary (intact : document.Intact nextId)
    (operand : document.OperandOf node operation side)
    (operand' : document.OperandOf other operation side.other) :
    ∃ step way operator lhs rhs, document.Stands operation step way (.binary operator lhs rhs) := by
  obtain ⟨-, found, known⟩ := intact.exists_nodes_of_operandOf operand
  obtain ⟨onSide, -⟩ := (intact.operandOf_iff_of_operation known).1 operand
  obtain ⟨onOther, -⟩ := (intact.operandOf_iff_of_operation known).1 operand'
  obtain ⟨part, stands⟩ := Option.isSome_iff_exists.1 onSide
  obtain ⟨part', stands'⟩ := Option.isSome_iff_exists.1 onOther
  obtain ⟨operator, lhs, rhs, whole⟩ := Expr.exists_binary_of_operandOn? stands stands'
  obtain ⟨step, way, there⟩ := intact.node?_eq_some_iff_stands.1 ⟨found, known, whole⟩
  exact ⟨step, way, operator, lhs, rhs, there⟩

/-- The operands of an operation are different nodes. -/
theorem ne_of_operandOf_other (intact : document.Intact nextId)
    (operand : document.OperandOf node operation side)
    (operand' : document.OperandOf other operation side.other) : node ≠ other := by
  intro same
  subst same
  obtain ⟨⟨found, known⟩, -⟩ := intact.exists_nodes_of_operandOf operand
  obtain ⟨-, -, here⟩ := (intact.operandOf_iff known).1 operand
  obtain ⟨-, -, there⟩ := (intact.operandOf_iff known).1 operand'
  exact side.other_ne (there.symm.trans here)

/-- Nodes of one step that know one operation, if there are two of them, are those of its two
operands. -/
theorem beside_iff (intact : document.Intact nextId) (known : document.node? node = some found)
    (known' : document.node? other = some found') :
    document.Beside node other ↔ node ≠ other ∧ node.chain = other.chain ∧
      found.root = found'.root ∧ found.parent = found'.parent := by
  constructor
  · intro beside
    obtain ⟨operation, side, -, operand, operand'⟩ := beside
    obtain ⟨-, above, knownAbove⟩ := intact.exists_nodes_of_operandOf operand
    have root := intact.root_eq_of_operandOf operand known knownAbove
    have root' := intact.root_eq_of_operandOf operand' known' knownAbove
    obtain ⟨chain, parent, -⟩ := (intact.operandOf_iff known).1 operand
    obtain ⟨chain', parent', -⟩ := (intact.operandOf_iff known').1 operand'
    exact ⟨intact.ne_of_operandOf_other operand operand', chain.trans chain'.symm,
      root.trans root'.symm, parent.trans parent'.symm⟩
  · intro same
    obtain ⟨different, chain, root, parent⟩ := same
    have away : found'.side ≠ found.side := fun same => different (intact.eq_of_place known known'
      chain (by rw [Node.place, Node.place, root, parent, same]))
    cases above : found.parent with
    | none =>
        -- the roots of steps all count as standing on the left
        have left := intact.side_of_isRoot known above
        have left' := intact.side_of_isRoot known' (parent.symm.trans above)
        exact absurd (left'.trans left.symm) away
    | some index =>
        have operand : document.OperandOf node ⟨node.chain, index⟩ found.side :=
          (intact.operandOf_iff known).2 ⟨rfl, above, rfl⟩
        have operand' : document.OperandOf other ⟨node.chain, index⟩ found.side.other :=
          (intact.operandOf_iff known').2
            ⟨chain.symm, parent.symm.trans above, Side.eq_other_of_ne away⟩
        exact ⟨_, found.side, intact.exists_binary operand operand', operand, operand'⟩

/-- The ways to the operands of one operation part at the end. -/
theorem ways_of_beside (intact : document.Intact nextId)
    (stands : document.Stands node step way part) (stands' : document.Stands other step' way' part')
    (beside : document.Beside node other) :
    step = step' ∧ way.length = way'.length ∧ way.dropLast = way'.dropLast := by
  obtain ⟨operation, side, ⟨start, above, operator, lhs, rhs, whole⟩, operand, operand'⟩ := beside
  obtain ⟨rfl, rfl⟩ := intact.way_eq_of_operandOf stands whole operand
  obtain ⟨rfl, rfl⟩ := intact.way_eq_of_operandOf stands' whole operand'
  simp

end Intact

end Document

end Calculation
