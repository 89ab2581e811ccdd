import Calculation.Chain

/-!
The shape of the nodes of a chain.

Apart from their choices, the nodes of a chain are laid out by the expressions of its steps alone
(`Chain.Intact`), whatever happened to the chain.  So what a session relies on is a matter of
`Node.layout`: the root of its step, the operation it is an operand of and its side are the place of
a node, and no two nodes of a chain have the same place (`Chain.Intact.eq_of_place`).

A layout is what comes of putting in the nodes one by one, an operation before its operands, which it
learns of as they are put in (`Node.push_eq`, `Chain.append_eq_mirror`).

This is the reason why a node that is chosen beside a selected one belongs on the other side.
-/

namespace Calculation

theorem Expr.size_pos (expr : Expr) : 0 < expr.size := by
  cases expr with
  | atom symbol => exact Nat.zero_lt_one
  | unary operator operand => exact Nat.succ_pos _
  | binary operator lhs rhs => exact Nat.succ_pos _

namespace Node

/-! ## Nodes without their choices -/

/-- The node without its choice. -/
def bare (node : Node) : Node := { node with choice := none }

@[simp] theorem bare_expr (node : Node) : node.bare.expr = node.expr := rfl

@[simp] theorem bare_parent (node : Node) : node.bare.parent = node.parent := rfl

@[simp] theorem bare_root (node : Node) : node.bare.root = node.root := rfl

@[simp] theorem bare_side (node : Node) : node.bare.side = node.side := rfl

@[simp] theorem bare_operands (node : Node) : node.bare.operands = node.operands := rfl

@[simp] theorem bare_choice (node : Node) : node.bare.choice = none := rfl

theorem bare_eq_self {node : Node} : node.bare = node ↔ node.choice = none := by
  constructor
  · intro same
    rw [← same, bare_choice]
  · intro unchosen
    cases node
    cases unchosen
    rfl

/-- Without their choices, nodes are the same after another choice was made at one of them. -/
theorem map_bare_modify (nodes : List Node) (index : Nat) (choice : Option Choice) :
    (nodes.modify index fun node => { node with choice }).map bare = nodes.map bare := by
  refine List.ext_getElem? fun place => ?_
  rw [List.getElem?_map, List.getElem?_map, List.getElem?_modify]
  split
  · cases nodes[place]? with
    | none => rfl
    | some node => rfl
  · cases nodes[place]? with
    | none => rfl
    | some node => rfl

/-- Where a node stands: its step, its operation, and its side there. -/
def place (node : Node) : Nat × Option Nat × Side := (node.root, node.parent, node.side)

/-! ## Nodes put in one by one -/

/-- The nodes after the node at the index has learned of one more operand. -/
def withOperand (nodes : List Node) (index operand : Nat) : List Node :=
  nodes.modify index fun node => { node with operands := node.operands ++ [operand] }

theorem withOperand_append_cons (front back : List Node) (node : Node) (operand : Nat) :
    withOperand (front ++ node :: back) front.length operand =
      front ++ { node with operands := node.operands ++ [operand] } :: back :=
  List.modifyTailIdx_add _ 0 front (node :: back)

/-- The nodes with those of an expression behind them, and the index of its own node.  A node is put
in before its operands are, so it learns of each of them when the nodes of this operand are there. -/
def push (nodes : List Node) (parent : Option Nat) (root : Nat) (side : Side) :
    Expr → List Node × Nat
  | .atom symbol =>
    (nodes ++ [{ expr := .atom symbol, parent, root, side, operands := [] }], nodes.length)
  | .unary operator operand =>
    let index := nodes.length
    let own : Node := { expr := .unary operator operand, parent, root, side, operands := [] }
    let (nodes, only) := push (nodes ++ [own]) (some index) root .left operand
    (withOperand nodes index only, index)
  | .binary operator lhs rhs =>
    let index := nodes.length
    let own : Node := { expr := .binary operator lhs rhs, parent, root, side, operands := [] }
    let (nodes, left) := push (nodes ++ [own]) (some index) root .left lhs
    let (nodes, right) := push (withOperand nodes index left) (some index) root .right rhs
    (withOperand nodes index right, index)

/-- The nodes that are put in one by one are those of the layout. -/
theorem push_eq (nodes : List Node) (expr : Expr) (parent : Option Nat) (root : Nat) (side : Side) :
    push nodes parent root side expr =
      (nodes ++ layout expr parent root side nodes.length, nodes.length) := by
  induction expr generalizing nodes parent side with
  | atom symbol => rfl
  | unary operator operand ih =>
      simp only [push, ih, List.length_append, List.length_singleton, List.append_assoc,
        List.singleton_append, withOperand_append_cons, List.nil_append, layout]
  | binary operator lhs rhs ihLeft ihRight =>
      -- the nodes of the left operand stand between the own node and those of the right one
      have behind : ∀ own : Node, (nodes ++ own ::
          layout lhs (some nodes.length) root .left (nodes.length + 1)).length =
            nodes.length + 1 + lhs.size := by
        intro own
        rw [List.length_append, List.length_cons, length_layout]
        omega
      simp only [push, ihLeft, ihRight, List.length_append, List.length_singleton,
        List.append_assoc, withOperand_append_cons, List.nil_append, behind, List.cons_append, layout]

/-! ## The nodes of one step -/

/-- The indices of the operands of an expression that is laid out from an index on. -/
def operandIndices (index : Nat) : Expr → List Nat
  | .atom _ => []
  | .unary _ _ => [index + 1]
  | .binary _ lhs _ => [index + 1, index + 1 + lhs.size]

/-- The first node of a layout, which is the node of the expression itself. -/
def first (expr : Expr) (parent : Option Nat) (root : Nat) (side : Side) (index : Nat) : Node :=
  { expr, parent, root, side, operands := operandIndices index expr }

/-- What stands below the node at an index stands below a node of the block that begins there. -/
theorem operation_of_standing {above : Option Nat} {beside side : Side}
    {index start stop last : Nat}
    (standing : (above = some index ∧ beside = side) ∨
      ∃ operation, above = some operation ∧ start ≤ operation ∧ operation < stop)
    (begins : index < start) (inside : start < stop) (ends : stop ≤ last) :
    ∃ operation, above = some operation ∧ index ≤ operation ∧ operation < last := by
  rcases standing with ⟨same, -⟩ | ⟨operation, same, least, most⟩
  · exact ⟨index, same, Nat.le_refl _, by omega⟩
  · exact ⟨operation, same, by omega, by omega⟩

variable {expr : Expr} {parent : Option Nat} {root index : Nat} {side : Side} {node : Node}

/-- Every node of a layout is the first node of the layout of a subexpression, inside the block of
nodes that the expression has.  It stands where the expression does or below a node of the block. -/
theorem exists_first_of_mem_layout (mem : node ∈ layout expr parent root side index) :
    ∃ part above beside start, node = first part above root beside start ∧
      index ≤ start ∧ start + part.size ≤ index + expr.size ∧
      ((above = parent ∧ beside = side) ∨
        ∃ operation, above = some operation ∧
          index ≤ operation ∧ operation < index + expr.size) := by
  induction expr generalizing parent side index with
  | atom symbol =>
      rw [layout, List.mem_singleton] at mem
      exact ⟨.atom symbol, parent, side, index, mem, Nat.le_refl _, Nat.le_refl _,
        .inl ⟨rfl, rfl⟩⟩
  | unary operator operand ih =>
      rw [layout, List.mem_cons] at mem
      rcases mem with rfl | below
      · exact ⟨.unary operator operand, parent, side, index, rfl, Nat.le_refl _, Nat.le_refl _,
          .inl ⟨rfl, rfl⟩⟩
      · rcases ih below with ⟨part, above, beside, start, rfl, lower, upper, standing⟩
        have inside := operand.size_pos
        rw [Expr.size]
        exact ⟨part, above, beside, start, rfl, by omega, by omega,
          .inr (operation_of_standing standing (by omega) (by omega) (by omega))⟩
  | binary operator lhs rhs ihLeft ihRight =>
      rw [layout, List.mem_cons, List.mem_append] at mem
      rcases mem with rfl | left | right
      · exact ⟨.binary operator lhs rhs, parent, side, index, rfl, Nat.le_refl _, Nat.le_refl _,
          .inl ⟨rfl, rfl⟩⟩
      · rcases ihLeft left with ⟨part, above, beside, start, rfl, lower, upper, standing⟩
        have inside := lhs.size_pos
        rw [Expr.size]
        exact ⟨part, above, beside, start, rfl, by omega, by omega,
          .inr (operation_of_standing standing (by omega) (by omega) (by omega))⟩
      · rcases ihRight right with ⟨part, above, beside, start, rfl, lower, upper, standing⟩
        have inside := rhs.size_pos
        rw [Expr.size]
        exact ⟨part, above, beside, start, rfl, by omega, by omega,
          .inr (operation_of_standing standing (by omega) (by omega) (by omega))⟩

theorem root_of_mem_layout (mem : node ∈ layout expr parent root side index) :
    node.root = root := by
  rcases exists_first_of_mem_layout mem with ⟨part, above, beside, start, rfl, -⟩
  rfl

theorem choice_of_mem_layout (mem : node ∈ layout expr parent root side index) :
    node.choice = none := by
  rcases exists_first_of_mem_layout mem with ⟨part, above, beside, start, rfl, -⟩
  rfl

/-- A node of a layout stands where the expression was put, or is an operand in the block. -/
theorem standing_of_mem_layout (mem : node ∈ layout expr parent root side index) :
    (node.parent = parent ∧ node.side = side) ∨
      ∃ operation, node.parent = some operation ∧
        index ≤ operation ∧ operation < index + expr.size := by
  rcases exists_first_of_mem_layout mem with ⟨part, above, beside, start, rfl, -, -, standing⟩
  exact standing

theorem lt_of_mem_operands_of_mem_layout {operand : Nat}
    (mem : node ∈ layout expr parent root side index) (below : operand ∈ node.operands) :
    operand < index + expr.size := by
  rcases exists_first_of_mem_layout mem with ⟨part, above, beside, start, rfl, -, upper, -⟩
  cases part with
  | atom symbol => cases below
  | unary operator argument =>
      have positive := argument.size_pos
      rw [first, operandIndices, List.mem_singleton] at below
      rw [Expr.size] at upper
      omega
  | binary operator lhs rhs =>
      have left := lhs.size_pos
      have right := rhs.size_pos
      rw [first, operandIndices, List.mem_cons, List.mem_singleton] at below
      rw [Expr.size] at upper
      omega

/-- The operands of a node do not stand where the node does. -/
theorem parent_ne_of_mem_layout {start : Nat}
    (mem : node ∈ layout expr (some index) root side start) (begins : index < start)
    (before : ∀ operation, parent = some operation → operation < index) :
    node.parent ≠ parent := by
  intro same
  rcases standing_of_mem_layout mem with ⟨above, -⟩ | ⟨operation, above, least, -⟩
  · exact Nat.lt_irrefl index (before index (same.symm.trans above))
  · have earlier := before operation (same.symm.trans above)
    omega

/-- No two nodes of a layout have the same place.  What the expression is an operand of must stand
before the layout, so that it is not taken for a node of it. -/
theorem nodup_place_layout (before : ∀ operation, parent = some operation → operation < index) :
    ((layout expr parent root side index).map place).Nodup := by
  induction expr generalizing parent side index with
  | atom symbol => simp only [layout, List.map_cons, List.map_nil, List.nodup_cons,
      List.not_mem_nil, not_false_eq_true, List.nodup_nil, and_self]
  | unary operator operand ih =>
      rw [layout, List.map_cons, List.nodup_cons]
      refine ⟨?_, ih fun operation same => by cases same; exact Nat.lt_succ_self _⟩
      intro mem
      rcases List.mem_map.1 mem with ⟨node, below, same⟩
      exact parent_ne_of_mem_layout below (Nat.lt_succ_self _) before (congrArg (·.2.1) same)
  | binary operator lhs rhs ihLeft ihRight =>
      rw [layout, List.map_cons, List.map_append, List.nodup_cons, List.nodup_append]
      refine ⟨?_, ihLeft fun operation same => by cases same; exact Nat.lt_succ_self _,
        ihRight fun operation same => by cases same; omega, ?_⟩
      · intro mem
        rw [List.mem_append, List.mem_map, List.mem_map] at mem
        rcases mem with ⟨node, below, same⟩ | ⟨node, below, same⟩
        · exact parent_ne_of_mem_layout below (by omega) before (congrArg (·.2.1) same)
        · exact parent_ne_of_mem_layout below (by omega) before (congrArg (·.2.1) same)
      · -- the blocks of the operands do not overlap, and their first nodes are on different sides
        intro standing left other right same
        rcases List.mem_map.1 left with ⟨node, memLeft, rfl⟩
        rcases List.mem_map.1 right with ⟨node', memRight, rfl⟩
        simp only [place, Prod.mk.injEq] at same
        rcases standing_of_mem_layout memLeft with ⟨above, beside⟩ | ⟨_, above, least, most⟩
        · rcases standing_of_mem_layout memRight with ⟨above', beside'⟩ | ⟨_, above', least', _⟩
          · rw [beside, beside'] at same
            cases same.2.2
          · rw [above, above', Option.some.injEq] at same
            omega
        · rcases standing_of_mem_layout memRight with ⟨above', beside'⟩ | ⟨_, above', least', _⟩
          · rw [above, above', Option.some.injEq] at same
            omega
          · rw [above, above', Option.some.injEq] at same
            omega

end Node

namespace Chain

/-! ## Steps put in one by one -/

/-- The chain with the nodes of one more step, which are put in one by one. -/
def mirror (chain : Chain) (expr : Expr) : Chain :=
  let root := chain.nodes.length
  { chain with
    nodes := (Node.push chain.nodes none root .left expr).1
    roots := chain.roots ++ [root] }

/-- A chain begins without nodes, and then those of its beginning are put in. -/
theorem start_eq_mirror (id : ChainId) (theory : Theory) (beginning : Expr) :
    start id theory beginning =
      ({ id, beginning, theory, links := [], nodes := [], roots := [] } : Chain).mirror
        beginning := by
  rw [mirror, Node.push_eq]
  rfl

theorem append_eq_mirror (chain : Chain) (link : Link) :
    chain.append link = { chain.mirror link.target with links := chain.links ++ [link] } := by
  rw [mirror, Node.push_eq]
  rfl

/-! ## The nodes of all steps -/

/-- The expressions of the steps, the beginning first. -/
def expressions (chain : Chain) : List Expr := chain.beginning :: chain.links.map Link.target

theorem expressions_append (chain : Chain) (link : Link) :
    (chain.append link).expressions = chain.expressions ++ [link.target] := by
  simp only [expressions, Chain.append, List.map_append, List.map_cons, List.map_nil,
    List.cons_append]

/-- The nodes of steps that stand one after the other, the first step from an index on. -/
def arena (index : Nat) : List Expr → List Node
  | [] => []
  | expr :: rest => Node.layout expr none index .left index ++ arena (index + expr.size) rest

/-- The indices of the first nodes of these steps. -/
def starts (index : Nat) : List Expr → List Nat
  | [] => []
  | expr :: rest => index :: starts (index + expr.size) rest

theorem starts_append (index : Nat) (front back : List Expr) :
    starts index (front ++ back) =
      starts index front ++ starts (index + (arena index front).length) back := by
  induction front generalizing index with
  | nil => rfl
  | cons expr rest ih =>
      rw [List.cons_append, starts, starts, ih, arena, List.length_append, Node.length_layout,
        Nat.add_assoc, List.cons_append]

theorem arena_append (index : Nat) (front back : List Expr) :
    arena index (front ++ back) =
      arena index front ++ arena (index + (arena index front).length) back := by
  induction front generalizing index with
  | nil => rfl
  | cons expr rest ih =>
      rw [List.cons_append, arena, arena, ih, List.append_assoc, List.length_append,
        Node.length_layout, Nat.add_assoc]

section

variable {index : Nat} {expressions : List Expr} {node : Node}

theorem le_root_of_mem_arena (mem : node ∈ arena index expressions) : index ≤ node.root := by
  induction expressions generalizing index with
  | nil => cases mem
  | cons expr rest ih =>
      rcases List.mem_append.1 mem with here | later
      · exact Nat.le_of_eq (Node.root_of_mem_layout here).symm
      · exact Nat.le_trans (Nat.le_add_right _ _) (ih later)

/-- The root of a step counts as a node on the left. -/
theorem side_of_mem_arena (mem : node ∈ arena index expressions) (root : node.parent = none) :
    node.side = .left := by
  induction expressions generalizing index with
  | nil => cases mem
  | cons expr rest ih =>
      rcases List.mem_append.1 mem with here | later
      · rcases Node.standing_of_mem_layout here with ⟨-, beside⟩ | ⟨operation, above, -⟩
        · exact beside
        · rw [root] at above
          cases above
      · exact ih later

theorem lt_of_mem_operands_of_mem_arena {operand : Nat} (mem : node ∈ arena index expressions)
    (below : operand ∈ node.operands) : operand < index + (arena index expressions).length := by
  induction expressions generalizing index with
  | nil => cases mem
  | cons expr rest ih =>
      rw [arena, List.length_append, Node.length_layout]
      rcases List.mem_append.1 mem with here | later
      · have inside := Node.lt_of_mem_operands_of_mem_layout here below
        omega
      · have inside := ih later
        omega

theorem nodup_place_arena : ((arena index expressions).map Node.place).Nodup := by
  induction expressions generalizing index with
  | nil => exact List.nodup_nil
  | cons expr rest ih =>
      rw [arena, List.map_append, List.nodup_append]
      refine ⟨Node.nodup_place_layout (fun operation none => by cases none), ih, ?_⟩
      intro standing here other later same
      rcases List.mem_map.1 here with ⟨node, memHere, rfl⟩
      rcases List.mem_map.1 later with ⟨node', memLater, rfl⟩
      have root := Node.root_of_mem_layout memHere
      have root' := le_root_of_mem_arena memLater
      have equal : node.root = node'.root := congrArg Prod.fst same
      have positive := expr.size_pos
      omega

end

/-! ## Chains with the right nodes -/

/-- A chain that has been given its id already, and whose nodes and roots are those of its steps,
whatever is chosen at the nodes. -/
structure Intact (nextId : ChainId) (chain : Chain) : Prop where
  id_lt : chain.id < nextId
  nodes : chain.nodes.map Node.bare = arena 0 chain.expressions
  roots : chain.roots = starts 0 chain.expressions

namespace Intact

variable {nextId : ChainId} {chain : Chain}

theorem start {id : ChainId} (given : id < nextId) (theory : Theory) (beginning : Expr) :
    (Chain.start id theory beginning).Intact nextId where
  id_lt := given
  nodes := by
    have unchosen : ∀ node ∈ Node.layout beginning none 0 .left 0, node.bare = node :=
      fun node mem => Node.bare_eq_self.2 (Node.choice_of_mem_layout mem)
    simp only [Chain.start, expressions, arena, List.map_nil, List.append_nil]
    rw [List.map_congr_left unchosen, List.map_id']
  roots := rfl

theorem length_arena (intact : chain.Intact nextId) :
    (arena 0 chain.expressions).length = chain.nodes.length := by
  rw [← intact.nodes, List.length_map]

theorem append (intact : chain.Intact nextId) (link : Link) :
    (chain.append link).Intact nextId where
  id_lt := intact.id_lt
  nodes := by
    have unchosen : ∀ node ∈ Node.layout link.target none chain.nodes.length .left
        chain.nodes.length, node.bare = node :=
      fun node mem => Node.bare_eq_self.2 (Node.choice_of_mem_layout mem)
    rw [expressions_append, arena_append, intact.length_arena, ← intact.nodes]
    simp only [Chain.append, List.map_append, arena, List.append_nil, Nat.zero_add]
    rw [List.map_congr_left unchosen, List.map_id']
  roots := by
    rw [expressions_append, starts_append, intact.length_arena, ← intact.roots, Nat.zero_add]
    rfl

theorem copy (intact : chain.Intact nextId) {id : ChainId} (given : id < nextId) :
    (chain.copy id).Intact nextId where
  id_lt := given
  nodes := by
    have bare : (chain.copy id).nodes = chain.nodes.map Node.bare := rfl
    rw [bare, List.map_map]
    exact intact.nodes
  roots := intact.roots

theorem mono (intact : chain.Intact nextId) {later : ChainId} (le : nextId ≤ later) :
    chain.Intact later :=
  ⟨Nat.lt_of_lt_of_le intact.id_lt le, intact.nodes, intact.roots⟩

/-- Choices are no part of the shape of a chain. -/
theorem of_modify (intact : chain.Intact nextId) (index : Nat) (choice : Option Choice) :
    { chain with
      nodes := chain.nodes.modify index fun node => { node with choice } }.Intact nextId where
  id_lt := intact.id_lt
  nodes := (Node.map_bare_modify chain.nodes index choice).trans intact.nodes
  roots := intact.roots

theorem bare_mem (intact : chain.Intact nextId) {node : Node} (mem : node ∈ chain.nodes) :
    node.bare ∈ arena 0 chain.expressions :=
  intact.nodes ▸ List.mem_map_of_mem mem

/-- A node is known by its place. -/
theorem eq_of_place (intact : chain.Intact nextId) {i j : Nat} {node other : Node}
    (here : chain.nodes[i]? = some node) (there : chain.nodes[j]? = some other)
    (same : node.place = other.place) : i = j := by
  have places : chain.nodes.map Node.place = (arena 0 chain.expressions).map Node.place := by
    rw [← intact.nodes, List.map_map]
    rfl
  have nodup : (chain.nodes.map Node.place).Nodup := places ▸ nodup_place_arena
  have bound : i < (chain.nodes.map Node.place).length := by
    rw [List.length_map]
    exact (List.getElem?_eq_some_iff.1 here).1
  refine (List.getElem?_inj bound nodup).1 ?_
  rw [List.getElem?_map, List.getElem?_map, here, there, Option.map_some, Option.map_some, same]

theorem side_of_isRoot (intact : chain.Intact nextId) {node : Node} (mem : node ∈ chain.nodes)
    (root : node.parent = none) : node.side = .left := by
  rw [← Node.bare_side]
  exact side_of_mem_arena (intact.bare_mem mem) root

theorem lt_of_mem_operands (intact : chain.Intact nextId) {node : Node} {operand : Nat}
    (mem : node ∈ chain.nodes) (below : operand ∈ node.operands) :
    operand < chain.nodes.length := by
  have inside := lt_of_mem_operands_of_mem_arena (intact.bare_mem mem) below
  rwa [intact.length_arena, Nat.zero_add] at inside

end Intact

/-! ## Chains without choices -/

/-- A chain at which nothing is chosen. -/
def Blank (chain : Chain) : Prop := ∀ node ∈ chain.nodes, node.choice = none

namespace Blank

variable {chain : Chain}

theorem start (id : ChainId) (theory : Theory) (beginning : Expr) :
    (Chain.start id theory beginning).Blank :=
  fun _ mem => Node.choice_of_mem_layout mem

theorem append (blank : chain.Blank) (link : Link) : (chain.append link).Blank := by
  intro node mem
  rcases List.mem_append.1 mem with old | new
  · exact blank node old
  · exact Node.choice_of_mem_layout new

theorem copy (chain : Chain) (id : ChainId) : (chain.copy id).Blank := by
  intro node mem
  rcases List.mem_map.1 mem with ⟨original, -, rfl⟩
  rfl

end Blank

end Chain

end Calculation
