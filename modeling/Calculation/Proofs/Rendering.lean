import Calculation.Proofs.Coherence
import Calculation.Proofs.Conversation

/-!
What a console lists of a chain.

A listing goes through the nodes of a chain one after the other.  It finds out from the nodes alone
where a step begins and how far a line is set in, by climbing from a node to the operation above it
until there is none.  All the same it is what printing the expressions of the steps by recursion
comes to (`Session.listing`), since the nodes of an expression are a block in the order of the
recursion, and every climb from a node of the block passes through its first node.

* `Chain.Intact.exists_climb`: every climb ends, after as many operations as the depth says.
* `Chain.Intact.nodeLines_eq`: to go through the nodes prints the expressions of the steps.
* `Console.exists_run_prints`: what is printed, in every state that a console can get into.
-/

namespace Calculation

/-! ## Printing by recursion -/

/-- The line for an expression that stands below as many operations as `depth` says. -/
def Expr.listingLine (mark : String) (depth index : Nat) (expr : Expr) : String :=
  indent (2 + 2 * depth) (toString index ++ " " ++ expr.text ++ mark)

/-- The lines for an expression and all that it consists of, an operation before its operands.  They
are numbered from `index` on, and `mark` is put behind the subexpression with a number. -/
def Expr.listing (mark : Nat → String) (depth index : Nat) : Expr → List String
  | .atom symbol => [listingLine (mark index) depth index (.atom symbol)]
  | .unary operator operand =>
    listingLine (mark index) depth index (.unary operator operand) ::
      operand.listing mark (depth + 1) (index + 1)
  | .binary operator lhs rhs =>
    listingLine (mark index) depth index (.binary operator lhs rhs) ::
      (lhs.listing mark (depth + 1) (index + 1) ++
        rhs.listing mark (depth + 1) (index + 1 + lhs.size))

/-- The lines for steps, the first of them being number `step` with its lines numbered from `index`
on. -/
def stepListings (mark : Nat → String) (step index : Nat) : List Expr → List String
  | [] => []
  | expr :: rest =>
    ("step " ++ toString step ++ ":") ::
      (expr.listing mark 0 index ++ stepListings mark (step + 1) (index + expr.size) rest)

/-- The link that was chosen for the node, if the node is selected. -/
def Session.selectedLink? (session : Session) (node : NodeId) : Option Link :=
  if session.left = some node ∨ session.right = some node then
    (session.document.choice? node).map Choice.link
  else none

/-- What is put behind a node in a listing. -/
def Session.choiceText (session : Session) (node : NodeId) : String :=
  ((session.selectedLink? node).map fun link => " ⇒ " ++ link.text).getD ""

/-- The lines for a chain, its beginning first, and for what is selected in it. -/
def Session.listing (session : Session) (chain : Chain) : List String :=
  stepListings (fun index => session.choiceText (chain.idOf index)) 0 0 chain.expressions

theorem Expr.listing_eq_cons (mark : Nat → String) (depth index : Nat) (expr : Expr) :
    expr.listing mark depth index = expr.listingLine (mark index) depth index ::
      (expr.listing mark depth index).tail := by
  cases expr with
  | atom symbol => rfl
  | unary operator operand => rfl
  | binary operator lhs rhs => rfl

namespace Chain

/-- The indices that are met when one climbs from the node at an index to the operation above it,
and on until there is none. -/
def Climbs (chain : Chain) (index : Nat) : List Nat → Prop
  | [] => chain.nodes[index]?.bind Node.parent = none
  | above :: rest => chain.nodes[index]?.bind Node.parent = some above ∧ chain.Climbs above rest

/-- What a listing puts behind the node at an index. -/
def suffix (chain : Chain) (index : Nat) : String :=
  Choice.suffix (chain.nodes[index]?.bind Node.choice)

/-! ## Climbing -/

section

variable {chain : Chain} {index : Nat} {node : Node}

theorem depth_of_root (here : chain.nodes[index]? = some node) (root : node.parent = none) :
    chain.depth index = 0 := by
  rw [depth, here, Option.bind_some, root]

theorem depth_of_parent {above : Nat} (here : chain.nodes[index]? = some node)
    (parent : node.parent = some above) (before : above < index) :
    chain.depth index = chain.depth above + 1 := by
  rw [depth, here, Option.bind_some, parent]
  exact if_pos before

/-- An operation stands before its operands. -/
theorem Intact.lt_of_parent {nextId : ChainId} {above : Nat} (intact : chain.Intact nextId)
    (here : chain.nodes[index]? = some node) (parent : node.parent = some above) :
    above < index := by
  obtain ⟨operation, position, there, stands, -⟩ := intact.exists_operation here parent
  exact (intact.exists_operand there stands).1

/-- Every climb ends, and the depth of a node is how many operations are met on it. -/
theorem Intact.exists_climb {nextId : ChainId} (intact : chain.Intact nextId) (index : Nat) :
    ∃ met, chain.Climbs index met ∧ met.length = chain.depth index := by
  induction index using Nat.strongRecOn with
  | ind index ih =>
      cases above : chain.nodes[index]?.bind Node.parent with
      | none =>
          refine ⟨[], above, ?_⟩
          rw [depth, above]
          rfl
      | some parent =>
          obtain ⟨node, here, known⟩ := Option.bind_eq_some_iff.1 above
          have before := intact.lt_of_parent here known
          obtain ⟨met, climbs, length⟩ := ih parent before
          refine ⟨parent :: met, ⟨above, climbs⟩, ?_⟩
          rw [depth_of_parent here known before, List.length_cons, length]

end

/-! ## Going through the nodes -/

section

variable {chain : Chain} {root index above depth step : Nat} {expr : Expr} {parent : Option Nat}
  {side : Side}

/-- The line for the first node of a block. -/
theorem nodeLine_of_block {node : Node}
    (block : Node.Block (chain.nodes.map Node.bare) root expr parent side index)
    (here : chain.nodes[index]? = some node) (deep : chain.depth index = depth) :
    chain.nodeLine index node = expr.listingLine (chain.suffix index) depth index := by
  have text : node.expr = expr := congrArg Node.expr (block.bare_eq here)
  rw [Expr.listingLine, nodeLine, Node.line, deep, text, suffix, here, Option.bind_some,
    ← String.append_assoc]

/-- An operand stands one operation deeper than its operation. -/
theorem depth_of_block
    (block : Node.Block (chain.nodes.map Node.bare) root expr (some above) side index)
    (later : above < index) (deep : chain.depth above = depth) :
    chain.depth index = depth + 1 := by
  obtain ⟨node, here, bare⟩ := block.exists_node
  rw [depth_of_parent here (congrArg Node.parent bare) later, deep]

/-- If the lines below the first node of a block are those of the operands, then the lines of the
block are those of the expression. -/
theorem nodeLinesFrom_of_below
    (block : Node.Block (chain.nodes.map Node.bare) root expr (some above) side index)
    (deep : chain.depth index = depth)
    (below : chain.nodeLinesFrom step (index + 1) (chain.nodes.drop (index + 1)) =
      (expr.listing chain.suffix depth index).tail ++
        chain.nodeLinesFrom step (index + expr.size) (chain.nodes.drop (index + expr.size))) :
    chain.nodeLinesFrom step index (chain.nodes.drop index) =
      expr.listing chain.suffix depth index ++
        chain.nodeLinesFrom step (index + expr.size) (chain.nodes.drop (index + expr.size)) := by
  obtain ⟨node, here, bare⟩ := block.exists_node
  have operand : node.isRoot = false := by
    have parent : node.parent = some above := congrArg Node.parent bare
    rw [Node.isRoot, parent]
    rfl
  rw [List.drop_eq_getElem?_toList_append, here, Option.toList_some, List.singleton_append,
    nodeLinesFrom, operand, if_neg Bool.false_ne_true, below, nodeLine_of_block block here deep,
    Expr.listing_eq_cons chain.suffix depth index expr, List.tail_cons, List.cons_append]

/-- The lines below the first node of a block are those of the operands. -/
theorem nodeLinesFrom_below_block
    (block : Node.Block (chain.nodes.map Node.bare) root expr parent side index)
    (deep : chain.depth index = depth) :
    chain.nodeLinesFrom step (index + 1) (chain.nodes.drop (index + 1)) =
      (expr.listing chain.suffix depth index).tail ++
        chain.nodeLinesFrom step (index + expr.size) (chain.nodes.drop (index + expr.size)) := by
  induction expr generalizing parent side index depth with
  | atom symbol => rfl
  | unary operator operand ih =>
      have deeper := depth_of_block block.operand (Nat.lt_succ_self index) deep
      have after : index + (Expr.unary operator operand).size = index + 1 + operand.size := by
        rw [Expr.size]
        omega
      rw [nodeLinesFrom_of_below block.operand deeper (ih block.operand deeper), after]
      rfl
  | binary operator lhs rhs ihl ihr =>
      have left := depth_of_block block.lhs (Nat.lt_succ_self index) deep
      have right := depth_of_block block.rhs (by omega) deep
      have after : index + (Expr.binary operator lhs rhs).size =
          index + 1 + lhs.size + rhs.size := by
        rw [Expr.size]
        omega
      rw [nodeLinesFrom_of_below block.lhs left (ihl block.lhs left),
        nodeLinesFrom_of_below block.rhs right (ihr block.rhs right), after,
        ← List.append_assoc]
      rfl

/-- The lines of a step. -/
theorem nodeLinesFrom_of_root
    (block : Node.Block (chain.nodes.map Node.bare) root expr none side index) :
    chain.nodeLinesFrom step index (chain.nodes.drop index) =
      ("step " ++ toString step ++ ":") :: (expr.listing chain.suffix 0 index ++
        chain.nodeLinesFrom (step + 1) (index + expr.size)
          (chain.nodes.drop (index + expr.size))) := by
  obtain ⟨node, here, bare⟩ := block.exists_node
  have alone : node.parent = none := congrArg Node.parent bare
  have begins : node.isRoot = true := by
    rw [Node.isRoot, alone]
    rfl
  have flat := depth_of_root here alone
  rw [List.drop_eq_getElem?_toList_append, here, Option.toList_some, List.singleton_append,
    nodeLinesFrom, begins, if_pos rfl, nodeLinesFrom_below_block block flat,
    nodeLine_of_block block here flat, Expr.listing_eq_cons chain.suffix 0 index expr,
    List.tail_cons, List.cons_append]

/-- The lines for the steps from an index on, if their nodes are the rest of the chain's. -/
theorem nodeLinesFrom_of_arena {expressions : List Expr}
    (rest : (chain.nodes.map Node.bare).drop index = arena index expressions) :
    chain.nodeLinesFrom step index (chain.nodes.drop index) =
      stepListings chain.suffix step index expressions := by
  induction expressions generalizing step index with
  | nil =>
      rw [← List.map_drop, arena, List.map_eq_nil_iff] at rest
      rw [rest]
      rfl
  | cons expr later ih =>
      rw [arena] at rest
      have block : Node.Block (chain.nodes.map Node.bare) index expr none .left index := by
        unfold Node.Block
        rw [rest]
        exact List.prefix_append _ _
      have behind : (chain.nodes.map Node.bare).drop (index + expr.size) =
          arena (index + expr.size) later := by
        rw [← List.drop_drop, rest, List.drop_left' (Node.length_layout ..)]
      rw [nodeLinesFrom_of_root block, ih behind]
      rfl

/-- To go through the nodes prints the expressions of the steps. -/
theorem Intact.nodeLines_eq {nextId : ChainId} (intact : chain.Intact nextId) :
    chain.nodeLines = stepListings chain.suffix 0 0 chain.expressions :=
  nodeLinesFrom_of_arena intact.nodes

-- Both steps count their depth from their own root, and the second goes on with the numbers.
example : (Chain.associativity 0).nodeLines =
    ["step 0:", "  0 ((x ⋅ y) ⋅ z)", "    1 (x ⋅ y)", "      2 x", "      3 y", "    4 z",
      "step 1:", "  5 (x ⋅ (y ⋅ z))", "    6 x", "    7 (y ⋅ z)", "      8 y", "      9 z"] := by
  cbv

end

end Chain

/-! ## What is put behind the nodes -/

namespace Session

variable {nextId : ChainId} {session : Session} {chain : Chain}

/-- What is put behind a node is the choice made for it, as nothing was chosen for what is not
selected. -/
theorem Tidy.choiceText_eq (tidy : session.Tidy nextId) (node : NodeId) :
    session.choiceText node = Choice.suffix (session.document.choice? node) := by
  rw [choiceText, selectedLink?]
  split
  · cases session.document.choice? node with
    | none => rfl
    | some choice => rfl
  · rename_i free
    obtain ⟨left, right⟩ := not_or.1 free
    rw [tidy.choice?_eq_none fun side => by cases side <;> assumption]
    rfl

/-- A choice was made for every node that is selected. -/
theorem Tidy.isSome_selectedLink? (tidy : session.Tidy nextId) (node : NodeId) :
    (session.selectedLink? node).isSome ↔
      session.left = some node ∨ session.right = some node := by
  unfold selectedLink?
  split
  · rename_i held
    have held : ∃ side, session.slot side = some node := by
      rcases held with left | right
      · exact ⟨.left, left⟩
      · exact ⟨.right, right⟩
    obtain ⟨side, held⟩ := held
    obtain ⟨-, found, known, rfl⟩ := tidy.held side node held
    rw [Document.choice?_of_node? known, Option.isSome_map]
    exact iff_of_true ((tidy.chosen node found known).2 held) ‹_›
  · rename_i free
    exact iff_of_false Bool.false_ne_true free

/-- How a listing of the chain relates to what the chain is and to what is selected in it. -/
structure Lists (session : Session) (chain : Chain) : Prop where
  lines : chain.nodeLines = session.listing chain
  marked : ∀ node, (session.selectedLink? node).isSome ↔
    session.left = some node ∨ session.right = some node
  /-- The depth of a node is found out, and is the number of operations above it. -/
  climbs : ∀ index, ∃ met, chain.Climbs index met ∧ met.length = chain.depth index

theorem Tidy.lists (tidy : session.Tidy nextId) (mem : chain ∈ session.document.chains) :
    session.Lists chain where
  lines := by
    have marks : chain.suffix = fun index => session.choiceText (chain.idOf index) := by
      funext index
      rw [tidy.choiceText_eq, Document.choice?, tidy.node?_idOf mem, Chain.suffix]
    rw [(tidy.intact.chains chain mem).nodeLines_eq, marks]
    rfl
  marked := tidy.isSome_selectedLink?
  climbs := (tidy.intact.chains chain mem).exists_climb

end Session

/-! ## Listings on a console -/

namespace Console

variable {console : Console} {source : String}

/-- A command that leaves no change to be shown has the last word. -/
theorem execute_of_say {command : Command} {after : Console} {lines : List String}
    (parsed : Command.parse source = .ok command)
    (done : console.perform (.ofString source) command = .ok (after.say lines))
    (quiet : after.pending = []) : console.execute source = .ok (after.say lines) := by
  have shown : { after with pending := [] } = after := by rw [← quiet]
  simp only [execute, parsed, done, bind, Except.bind, Answer.withChanges, say, quiet, shown]
  rw [List.mapM_nil]
  simp [pure, Except.pure]

theorem mem_of_pick? {number : Option Nat} {chain : Chain}
    (picked : console.pick? number = some chain) : chain ∈ console.document.chains := by
  cases number with
  | some number => exact List.mem_of_getElem? picked
  | none =>
      obtain ⟨id, -, listed⟩ := Option.bind_eq_some_iff.1 picked
      exact (Document.mem_of_find? listed).1

/-- What a console prints of its chains. -/
structure Prints (console : Console) : Prop where
  lists : ∀ chain ∈ console.document.chains, console.session.Lists chain
  /-- Any chain can be asked for, and what is printed is its listing. -/
  nodes : ∀ source number, Command.parse source = .ok (.nodes number) →
    ∀ chain, console.pick? number = some chain →
      ∃ answer, console.execute source = .ok answer ∧
        answer.outcome = .ok (console.session.listing chain)
  /-- A chain is listed when it is begun. -/
  begin : ∀ source beginning, Command.parse source = .ok (.begin beginning) →
    ∃ answer chain, console.execute source = .ok answer ∧
      console.document.find? chain.id = none ∧ chain ∈ answer.console.document.chains ∧
      chain.expressions = [beginning] ∧ answer.console.current = some chain.id ∧
      answer.outcome = .ok (answer.console.session.listing chain)

theorem Ready.prints (ready : console.Ready) : Prints console where
  lists chain mem := ready.settled.session.lists mem
  nodes source number parsed chain picked := by
    have shown : console.perform (.ofString source) (.nodes number) =
        .ok (console.say chain.nodeLines) := by
      rw [perform, Console.showChain, picked]
      rfl
    refine ⟨_, execute_of_say parsed shown ready.pending, ?_⟩
    have lists : console.session.Lists chain := ready.settled.session.lists (mem_of_pick? picked)
    rw [say, lists.lines]
  begin source beginning parsed := by
    let chain : Chain := .start console.workspace.nextId console.theory beginning
    let after : Console := { console with
      workspace := (console.workspace.begin console.theory beginning).2
      current := some chain.id }
    have listed : after.document.find? chain.id = some chain :=
      (Document.find?_insert ..).trans (if_pos rfl)
    have begun : console.begin (.ofString source) beginning = after.say chain.nodeLines := by
      unfold Console.begin
      dsimp only [Workspace.begin]
      split
      · rename_i found shown
        cases listed.symm.trans shown
        rfl
      · rename_i missing
        cases listed.symm.trans missing
    have settled : after.workspace.Settled := by
      have handled := ready.begin (.ofString source) beginning
      rw [begun] at handled
      exact handled.settled
    have mem := (Document.mem_of_find? listed).1
    have said : console.perform (.ofString source) (.begin beginning) =
        .ok (after.say chain.nodeLines) := congrArg Except.ok begun
    refine ⟨_, chain, execute_of_say parsed said ready.pending,
      ready.settled.session.intact.find?_eq_none, mem, rfl, rfl, ?_⟩
    have lists : after.session.Lists chain := settled.session.lists mem
    rw [say, lists.lines]

/-- Whatever a new console is told, what it prints of a chain is what the expressions of the steps
come to when they are printed by recursion. -/
theorem exists_run_prints (nextId : ChainId) (theory : Theory) (sources : List String) :
    ∃ console, ({ theory, workspace := { nextId } } : Console).run sources = .ok console ∧
      Prints console := by
  obtain ⟨-, console, -, ran, -, ready, -⟩ :=
    (Remembers.empty nextId theory).exists_run (.empty nextId theory) sources
  exact ⟨console, ran, ready.prints⟩

end Console

end Calculation
