import Calculation.Proofs.Layout
import Calculation.Proofs.Transition

/-!
Which links are offered for an expression, and what a chain has to do with them.

The suggestions for a node come from the rules of its chain, resolved with what was chosen for its
operands.  What was chosen for them had been suggested in the same way, so all of it goes back to
the rules (`Theory.Offers`): nothing but the expression and the rules of the chain decides what may
be offered, whenever that is.

* `Session.Tidy.exists_suggests`: what is suggested for a node follows from what is chosen for its
  operands at the time of the request, and is offered for its expression, if the choices that are
  made are of links that were offered.
* `Chain.Continues.append`: a link that was chosen for the root of a step continues the chain from
  that step, which need not be the last one.
-/

namespace Calculation

/-- A link is offered for an expression if the rules suggest it, once they have been resolved with
links that are offered for some of the operands. -/
inductive Theory.Offers (theory : Theory) : Expr → Link → Prop
  | intro {expr : Expr} {link : Link} (chosen : List (Expr × Link))
      (operands : (chosen.map Prod.fst).Sublist expr.operands)
      (offered : ∀ choice ∈ chosen, Offers theory choice.1 choice.2)
      (suggested : link ∈ ((chosen.map fun choice =>
        choice.2.relationFrom choice.1).foldl Theory.resolve theory).suggestions expr) :
      Offers theory expr link

namespace Chain

variable {nextId : ChainId} {chain : Chain}

/-! ## What is chosen at the nodes -/

/-- The links chosen at the nodes are offered for their expressions. -/
def Founded (chain : Chain) : Prop :=
  ∀ node ∈ chain.nodes, ∀ choice, node.choice = some choice →
    chain.theory.Offers node.expr choice.link

theorem Blank.founded (blank : chain.Blank) : chain.Founded := by
  intro node mem choice chose
  rw [blank node mem] at chose
  cases chose

theorem Founded.append (founded : chain.Founded) (link : Link) : (chain.append link).Founded := by
  intro node mem choice chose
  rcases List.mem_append.1 mem with old | new
  · exact founded node old choice chose
  · rw [Node.choice_of_mem_layout new] at chose
    cases chose

/-- A choice may be made, if it is of a link that is offered, or be taken back. -/
theorem Founded.modify (founded : chain.Founded) (index : Nat) (choice : Option Choice)
    (offered : ∀ node made, chain.nodes[index]? = some node → choice = some made →
      chain.theory.Offers node.expr made.link) :
    { chain with
      nodes := chain.nodes.modify index fun node => { node with choice } }.Founded := by
  intro node mem made chose
  rcases List.mem_iff_getElem?.1 mem with ⟨place, here⟩
  rw [List.getElem?_modify] at here
  rcases Option.map_eq_some_iff.1 here with ⟨before, was, same⟩
  split at same
  · rename_i index_eq
    subst index_eq same
    exact offered before made was chose
  · cases same
    exact founded node (List.mem_of_getElem? was) made chose

/-- The expression and the link of the choice at the node with an index, if there is one. -/
def chosen? (chain : Chain) (index : Nat) : Option (Expr × Link) :=
  (chain.nodes[index]?).bind fun node => node.choice.map fun choice => (node.expr, choice.link)

theorem said?_eq (chain : Chain) (index : Nat) :
    chain.said? index = (chain.chosen? index).map fun choice => choice.2.relationFrom choice.1 := by
  cases here : chain.nodes[index]? with
  | none =>
      rw [said?, chosen?, here]
      rfl
  | some node =>
      rw [said?, chosen?, here, Option.bind_some, Option.bind_some, Option.map_map]
      rfl

/-- The operands of the expression of a node are the expressions of its operands. -/
theorem Laid.operands_eq (laid : chain.Laid) {index : Nat} {node : Node}
    (here : chain.nodes[index]? = some node) :
    node.expr.operands = node.operands.filterMap fun operand =>
      (chain.nodes[operand]?).map Node.expr := by
  have each : node.operands.map (fun operand => (chain.nodes[operand]?).map Node.expr) =
      node.expr.operands.map some := by
    refine List.ext_getElem? fun position => ?_
    rw [List.getElem?_map, List.getElem?_map]
    cases stands : node.operands[position]? with
    | none =>
        have outside := List.getElem?_eq_none_iff.1 stands
        rw [laid.length_operands node (List.mem_of_getElem? here)] at outside
        rw [List.getElem?_eq_none outside]
        rfl
    | some operand =>
        rcases laid.operands index node position operand here stands with
          ⟨-, below, there, argument, -⟩
        rw [argument, Option.map_some, Option.map_some, there]
        rfl
  have all := congrArg (List.filterMap fun operand => operand) each
  rw [List.filterMap_map, List.filterMap_map] at all
  exact (List.filterMap_some.symm.trans all.symm)

/-- A list is kept in part if less is made of its elements. -/
theorem sublist_filterMap {α β : Type} {f g : α → Option β}
    (less : ∀ x y, f x = some y → g x = some y) (list : List α) :
    (list.filterMap f).Sublist (list.filterMap g) := by
  induction list with
  | nil => exact .slnil
  | cons x rest ih =>
      cases kept : f x with
      | none =>
          rw [List.filterMap_cons_none kept]
          exact ih.trans ((List.sublist_cons_self x rest).filterMap g)
      | some y =>
          rw [List.filterMap_cons_some kept, List.filterMap_cons_some (less x y kept)]
          exact ih.cons_cons y

/-- The links are what the rules of the chain suggest for a node, resolved with links that were
chosen for operands of it, and that are offered for these. -/
structure Suggests (chain : Chain) (found : Node) (chosen : List (Expr × Link))
    (links : List Link) : Prop where
  operands : (chosen.map Prod.fst).Sublist found.expr.operands
  offered : ∀ choice ∈ chosen, chain.theory.Offers choice.1 choice.2
  suggested : links = ((chosen.map fun choice =>
    choice.2.relationFrom choice.1).foldl Theory.resolve chain.theory).suggestions found.expr

theorem Suggests.offers {found : Node} {chosen : List (Expr × Link)} {links : List Link}
    (suggests : chain.Suggests found chosen links) {link : Link} (mem : link ∈ links) :
    chain.theory.Offers found.expr link :=
  .intro chosen suggests.operands suggests.offered (suggests.suggested ▸ mem)

/-- What is suggested for a node follows from the choices at its operands. -/
theorem Founded.suggests (founded : chain.Founded) (laid : chain.Laid) {index : Nat} {node : Node}
    (here : chain.nodes[index]? = some node) :
    chain.Suggests node (node.operands.filterMap chain.chosen?)
      (((node.operands.filterMap chain.said?).foldl Theory.resolve
        chain.theory).suggestions node.expr) where
  operands := by
    rw [laid.operands_eq here, List.map_filterMap]
    refine sublist_filterMap (fun operand expr chose => ?_) _
    rcases Option.map_eq_some_iff.1 chose with ⟨choice, made, rfl⟩
    rcases Option.bind_eq_some_iff.1 made with ⟨below, there, given⟩
    rcases Option.map_eq_some_iff.1 given with ⟨-, -, rfl⟩
    rw [there]
    rfl
  offered choice mem := by
    rcases List.mem_filterMap.1 mem with ⟨operand, -, made⟩
    rcases Option.bind_eq_some_iff.1 made with ⟨below, there, given⟩
    rcases Option.map_eq_some_iff.1 given with ⟨chose, known, rfl⟩
    exact founded below (List.mem_of_getElem? there) chose known
  suggested := by rw [List.map_filterMap, funext (said?_eq chain)]

/-! ## What the links continue -/

theorem getElem?_append_of_eq_some {α : Type} {front : List α} {index : Nat} {x : α}
    (here : front[index]? = some x) (back : List α) : (front ++ back)[index]? = some x :=
  (List.getElem?_append_left (List.getElem?_eq_some_iff.1 here).1).trans here

/-- The links of the chain are offered for steps before them.  The roots of these steps are the
nodes listed, one for each link. -/
structure Continues (chain : Chain) (sources : List NodeId) : Prop where
  length : sources.length = chain.links.length
  offers : ∀ (index : Nat) (link : Link) (node : NodeId), chain.links[index]? = some link →
    sources[index]? = some node → ∃ step expr, step ≤ index ∧
      chain.roots[step]? = some node.index ∧ chain.expressions[step]? = some expr ∧
      chain.theory.Offers expr link

theorem Continues.start (id : ChainId) (theory : Theory) (beginning : Expr) :
    (Chain.start id theory beginning).Continues [] where
  length := rfl
  offers _ _ _ listed := nomatch listed

/-- What a chain continues does not depend on the choices at its nodes. -/
theorem Continues.of_nodes {sources : List NodeId} (continues : chain.Continues sources)
    (nodes : List Node) : { chain with nodes }.Continues sources :=
  ⟨continues.length, continues.offers⟩

/-- The root of a step has the expression of the step. -/
theorem Intact.exists_step_of_root (intact : chain.Intact nextId) {index : Nat} {node : Node}
    (here : chain.nodes[index]? = some node) (root : node.parent = none) :
    ∃ step : Nat, chain.roots[step]? = some index ∧
      chain.expressions[step]? = some node.expr := by
  have mem := (intact.laid.parent_eq_none index node here).1 root
  rcases List.mem_iff_getElem?.1 mem with ⟨step, begins⟩
  rcases intact.block begins with ⟨expr, found, block, -⟩
  have expr_eq : node.expr = expr := congrArg Node.expr (block.bare_eq here)
  exact ⟨step, begins, expr_eq ▸ found⟩

/-- A link that is offered for the root of a step continues the chain from that step. -/
theorem Continues.append {sources : List NodeId} (continues : chain.Continues sources)
    (intact : chain.Intact nextId) {node : NodeId} {found : Node}
    (here : chain.nodes[node.index]? = some found) (root : found.parent = none) {link : Link}
    (offered : chain.theory.Offers found.expr link) :
    (chain.append link).Continues (sources ++ [node]) where
  length := by
    rw [Chain.append, List.length_append, List.length_append, continues.length]
    rfl
  offers index link' node' listed source := by
    rw [expressions_append]
    change (chain.links ++ [link])[index]? = some link' at listed
    rcases Nat.lt_trichotomy index chain.links.length with old | rfl | outside
    · rw [List.getElem?_append_left old] at listed
      rw [List.getElem?_append_left (continues.length ▸ old)] at source
      rcases continues.offers index link' node' listed source with
        ⟨step, expr, before, begins, stands, offers⟩
      exact ⟨step, expr, before, getElem?_append_of_eq_some begins _,
        getElem?_append_of_eq_some stands _, offers⟩
    · rw [List.getElem?_concat_length] at listed
      rw [← continues.length, List.getElem?_concat_length] at source
      cases listed
      cases source
      rcases intact.exists_step_of_root here root with ⟨step, begins, stands⟩
      have inside := (List.getElem?_eq_some_iff.1 begins).1
      rw [intact.laid.length_roots] at inside
      exact ⟨step, _, Nat.le_of_lt_succ inside, getElem?_append_of_eq_some begins _,
        getElem?_append_of_eq_some stands _, offered⟩
    · rw [List.getElem?_eq_none] at listed
      · cases listed
      · rw [List.length_append]
        exact outside

end Chain

namespace Session

variable {nextId : ChainId} {session : Session} {node : NodeId}

/-- What a request is answered with follows from what is chosen for the operands of the node in the
session that is asked. -/
theorem Tidy.exists_suggests (tidy : session.Tidy nextId)
    (founded : ∀ id chain, session.document.find? id = some chain → chain.Founded)
    {ticket : Ticket} {step : Transition (Option (List Link))}
    (asked : session.request node ticket = .ok step) {links : List Link}
    (answer : step.answer = some links) :
    ∃ chain found, session.document.find? node.chain = some chain ∧
      chain.nodes[node.index]? = some found ∧
      chain.Suggests found (found.operands.filterMap chain.chosen?) links := by
  obtain ⟨chain, found, listed, known, rfl⟩ := tidy.of_answered asked answer
  obtain ⟨chain', listed', -, -, -, here⟩ := Document.exists_owner known
  cases listed.symm.trans listed'
  have intact := tidy.intact.chains chain (Document.mem_of_find? listed).1
  exact ⟨chain, found, listed, here, (founded _ chain listed).suggests intact.laid here⟩

end Session

end Calculation
