import Calculation.Proofs.Effective
import Calculation.Proofs.Undoing

/-!
Selecting both operands of an operation.

With nothing selected, a link can be chosen for each of the two operands of a binary operation, and
either of them can be the first one.  What the second choice is compared with is in one slot or in
the other one then, but the node is admitted beside it all the same, since the two are the operands
of one operation.  Both ways come to the session in which each of the slots holds its operand
(`Session.Pairs`), and there is one such session only (`Session.Pairs.unique`).

* `Session.Settled.exists_pairs`: both choices can be made, one after the other.
* `Workspace.exists_run_interchange`: it is so in every state that can be reached, and what is
  suggested for the operation then comes from both choices.
-/

namespace Calculation

/-! ## Operands of an operation -/

/-- The node of the operand on the side, for the operation with the expression at a node. -/
def NodeId.operand (operation : NodeId) (expr : Expr) (side : Side) : NodeId :=
  ⟨operation.chain, operation.index + expr.offset side⟩

namespace Document

variable {nextId : ChainId} {document before later : Document} {operation node : NodeId}
  {found : Node} {side : Side} {part : Expr}

/-- A node of a binary operation knows the indices of both its operands. -/
theorem Intact.operands_eq {operator : Symbol} {lhs rhs : Expr} (intact : document.Intact nextId)
    (known : document.node? operation = some found)
    (whole : found.expr = .binary operator lhs rhs) :
    found.operands = [(operation.operand found.expr .left).index,
      (operation.operand found.expr .right).index] := by
  obtain ⟨chain, listed, -, -, -, here⟩ := exists_owner known
  rw [(intact.chains chain (mem_of_find? listed).1).operands_eq here, whole]
  exact congrArg (fun right => [operation.index + 1, right]) (Nat.add_assoc ..)

/-- The operand on a side of an operation is in the document, and stands on that side. -/
theorem Intact.exists_operand (intact : document.Intact nextId)
    (known : document.node? operation = some found)
    (stands : found.expr.operandOn? side = some part) :
    document.OperandOf (operation.operand found.expr side) operation side ∧
      ∃ below, document.node? (operation.operand found.expr side) = some below ∧
        below.expr = part ∧ below.side = side := by
  have operand : document.OperandOf (operation.operand found.expr side) operation side :=
    (intact.operandOf_iff_of_operation known).2 ⟨Option.isSome_iff_exists.2 ⟨part, stands⟩, rfl⟩
  obtain ⟨step, way, chain, listed, above⟩ := intact.node?_eq_some_iff_stands.1 ⟨found, known, rfl⟩
  have beneath : document.Stands (operation.operand found.expr side) step (way ++ [side]) part :=
    ⟨chain, listed, above.operand stands⟩
  obtain ⟨below, there, expr⟩ := intact.exists_of_stands beneath
  obtain ⟨-, -, onSide⟩ := (intact.operandOf_iff there).1 operand
  exact ⟨operand, below, there, expr, onSide⟩

/-- A node keeps its expression as long as nothing but choices is changed. -/
theorem exists_expr_of_outline_eq (same : later.outline = before.outline)
    (known : before.node? node = some found) :
    ∃ kept, later.node? node = some kept ∧ kept.expr = found.expr := by
  obtain ⟨kept, known', bare⟩ := (Grows.of_outline_eq same).exists_node known
  refine ⟨kept, known', ?_⟩
  rw [← kept.bare_expr, bare, found.bare_expr]

end Document

namespace Session

variable {nextId laterId : ChainId} {session before between after last : Session}
  {operation : NodeId} {found : Node} {operands : Side → Expr} {nodes : Side → NodeId}
  {links : Side → Link} {side : Side}

/-! ## Two choices -/

/-- Each of the slots holds the node of its side, with the link chosen for it, and nothing else is
chosen.  Choices apart, the document is as before. -/
structure Pairs (before : Session) (nodes : Side → NodeId) (links : Side → Link)
    (after : Session) : Prop where
  slot : ∀ side, after.slot side = some (nodes side)
  active : ∀ side, after.active = some (nodes side).chain
  chooser : after.chooser = none
  outline : after.document.outline = before.document.outline
  choices : ∀ side, after.document.choice? (nodes side) = some ⟨side, links side⟩
  others : ∀ node, (∀ side, node ≠ nodes side) → after.document.choice? node = none

/-- There is one session only in which this is so. -/
theorem Pairs.unique (pairs : before.Pairs nodes links after)
    (pairs' : before.Pairs nodes links last) (intact : after.document.Intact nextId)
    (intact' : last.document.Intact laterId) : last = after := by
  have slots := fun side => (pairs'.slot side).trans (pairs.slot side).symm
  have active := (pairs'.active .left).trans (pairs.active .left).symm
  refine eq_of_outline_eq intact intact' slots active (pairs'.chooser.trans pairs.chooser.symm)
    (pairs'.outline.trans pairs.outline.symm) fun node => ?_
  by_cases chosen : ∃ side, node = nodes side
  · obtain ⟨side, rfl⟩ := chosen
    rw [pairs'.choices, pairs.choices]
  · have other := fun side same => chosen ⟨side, same⟩
    rw [pairs'.others node other, pairs.others node other]

/-- Two choices, for different nodes of one chain on the two sides, fill both slots. -/
theorem Fills.pairs (first : before.Fills (nodes side) side (links side) between)
    (second : between.Fills (nodes side.other) side.other (links side.other) after)
    (together : (nodes side).chain = (nodes side.other).chain)
    (apart : nodes side ≠ nodes side.other)
    (unchosen : ∀ node, before.document.choice? node = none) : before.Pairs nodes links after := by
  constructor
  case slot =>
    have other := second.other
    rw [side.other_other] at other
    exact side.both (other.trans first.slot) second.slot
  case active =>
    exact side.both (second.active.trans (congrArg some together.symm)) second.active
  case chooser => exact second.chooser
  case outline => exact second.outline.trans first.outline
  case choices =>
    refine side.both ?_ ?_
    · rw [second.choices, if_neg apart, first.choices, if_pos rfl]
    · rw [second.choices, if_pos rfl]
  case others =>
    intro node other
    rw [second.choices, if_neg (other _), first.choices, if_neg (other _), unchosen]

/-- With nothing but one operand of a binary operation selected, the other one is admitted. -/
theorem Settled.admission_of_fills {link : Link} (settled : after.Settled nextId)
    (fills : before.Fills (operation.operand found.expr side) side link after)
    (free : before.slot side.other = none)
    (known : before.document.node? operation = some found)
    (stands : ∀ side, found.expr.operandOn? side = some (operands side)) :
    after.admission (operation.operand found.expr side.other) = .ok .admitted ∧
      ∃ below, after.document.node? (operation.operand found.expr side.other) = some below ∧
        below.side = side.other := by
  obtain ⟨same, known', expr⟩ := Document.exists_expr_of_outline_eq fills.outline known
  rw [← expr] at stands fills ⊢
  obtain ⟨operand, -⟩ := settled.intact.exists_operand known' (stands side)
  obtain ⟨operand', below, there, -, onSide⟩ :=
    settled.intact.exists_operand known' (stands side.other)
  have beside : after.document.Beside (operation.operand same.expr side)
      (operation.operand same.expr side.other) :=
    ⟨operation, side, settled.intact.exists_binary operand operand', operand, operand'⟩
  have fits : after.Fits (operation.operand same.expr side.other) :=
    ⟨⟨below, there⟩, .inr ⟨side, _, fills.slot, fills.other.trans free, beside⟩⟩
  exact ⟨(settled.decides _).admitted.2 fits, below, there, onSide⟩

/-- With nothing selected, links can be chosen for both operands of a binary operation, that on
either side first. -/
theorem Settled.exists_pairs (settled : session.Settled nextId)
    (empty : ∀ side, session.slot side = none)
    (known : session.document.node? operation = some found)
    (stands : ∀ side, found.expr.operandOn? side = some (operands side)) (links : Side → Link)
    (side : Side) :
    ∃ first second,
      session.choose (operation.operand found.expr side) (links side) = .ok {
        answer := true
        session := first
        changes := [.node (operation.operand found.expr side)] } ∧
      first.choose (operation.operand found.expr side.other) (links side.other) = .ok {
        answer := true
        session := second
        changes := [.node (operation.operand found.expr side.other)] } ∧
      second.Settled nextId ∧ session.Pairs (operation.operand found.expr) links second := by
  obtain ⟨operand, below, there, -, onSide⟩ := settled.intact.exists_operand known (stands side)
  obtain ⟨operand', -⟩ := settled.intact.exists_operand known (stands side.other)
  have decided := (settled.decides _).admitted.2 ⟨⟨below, there⟩, .inl empty⟩
  obtain ⟨first, chose, between, fills⟩ := settled.exists_fills decided there (links side)
  rw [onSide] at fills
  obtain ⟨decided', below', there', onSide'⟩ :=
    between.admission_of_fills fills (empty side.other) known stands
  obtain ⟨second, chose', after, fills'⟩ :=
    between.exists_fills decided' there' (links side.other)
  rw [onSide'] at fills'
  refine ⟨first, second, chose, chose', after, fills.pairs fills' rfl ?_ fun node => ?_⟩
  · exact settled.intact.ne_of_operandOf_other operand operand'
  · exact settled.choice?_eq_none fun side held => nomatch (empty side).symm.trans held

/-! ## What is suggested then -/

/-- What both slots say is what was chosen for the operands. -/
theorem Pairs.facts_eq (pairs : before.Pairs (operation.operand found.expr) links after)
    (intact : after.document.Intact nextId)
    (known : after.document.node? operation = some found)
    (stands : ∀ side, found.expr.operandOn? side = some (operands side)) :
    after.facts =
      [Side.left, .right].map fun side => (links side).relationFrom (operands side) := by
  have said : ∀ side, after.saidOn? side = some ((links side).relationFrom (operands side)) := by
    intro side
    obtain ⟨-, below, there, expr, -⟩ := intact.exists_operand known (stands side)
    have choice := pairs.choices side
    rw [Document.choice?_of_node? there] at choice
    rw [saidOn?, pairs.slot, Option.bind_some, there, Option.bind_some, choice, expr]
    rfl
  rw [facts, funext said]
  rfl

/-- With both operands selected, what is suggested for the operation comes from the rules of the
chain, resolved with what was chosen for the left operand and then for the right one. -/
theorem Settled.request_of_pairs (settled : after.Settled nextId)
    (pairs : before.Pairs (operation.operand found.expr) links after)
    (known : before.document.node? operation = some found)
    (stands : ∀ side, found.expr.operandOn? side = some (operands side)) {chain : Chain}
    (listed : before.document.find? operation.chain = some chain) (ticket : Ticket) :
    after.request operation ticket = .ok {
      answer := some (((chain.theory.resolve ((links .left).relationFrom (operands .left))).resolve
        ((links .right).relationFrom (operands .right))).suggestions found.expr)
      session := { after with chooser := some ticket } } := by
  obtain ⟨kept, listed', unchanged⟩ := Document.exists_of_outline_eq
    (congrFun pairs.outline operation.chain) listed
  have theory : kept.bare.theory = chain.bare.theory := congrArg Chain.theory unchanged
  obtain ⟨same, known', expr⟩ := Document.exists_expr_of_outline_eq pairs.outline known
  rw [← expr] at pairs stands
  obtain ⟨operand, -⟩ := settled.intact.exists_operand known' (stands .left)
  have above : after.Overrides operation := ⟨.left, _, .left, pairs.slot .left, operand⟩
  have decided := (settled.decides operation).replacing.2 above
  have effective := settled.effective known' listed'
  have rules := effective.theory
  rw [effective.above above, pairs.facts_eq settled.intact known' stands,
    show kept.theory = chain.theory from theory] at rules
  simp only [request, decided, rules, known', bind, Except.bind, reduceCtorEq, if_false, expr,
    pairs.chooser]
  rfl

end Session

/-! ## All states -/

namespace Workspace

/-- Whatever is done from an empty workspace on, if nothing is selected then, links can be chosen
for the two operands of any binary operation, that on either side first.  Both ways come to the
same workspace, so whatever is asked from then on is answered in the same way.  Nothing but the
order of the changes tells which was the first. -/
theorem exists_run_interchange (nextId : ChainId) (operations : List Operation) :
    ∃ workspace, ({ nextId } : Workspace).run operations = .ok workspace ∧
      ((∀ side, workspace.session.slot side = none) → ∀ operation found operator lhs rhs,
        workspace.session.document.node? operation = some found →
        found.expr = .binary operator lhs rhs →
        ∃ (chain : Chain) (nodes : Side → NodeId),
          workspace.session.document.find? operation.chain = some chain ∧
          found.operands = [(nodes .left).index, (nodes .right).index] ∧
          (∀ side, (nodes side).chain = operation.chain) ∧
          ∀ links : Side → Link, ∃ after,
            (∀ side, ∃ between,
              workspace.perform (.choose (nodes side) (links side)) =
                .ok { workspace := between, changes := [.node (nodes side)] } ∧
              between.perform (.choose (nodes side.other) (links side.other)) =
                .ok { workspace := after, changes := [.node (nodes side.other)] }) ∧
            after = { workspace with session := after.session } ∧
            workspace.session.Pairs nodes links after.session ∧
            ∀ ticket, after.perform (.request operation ticket) = .ok {
              workspace := { after with session := { after.session with chooser := some ticket } }
              suggestions := ((chain.theory.resolve ((links .left).relationFrom lhs)).resolve
                ((links .right).relationFrom rhs)).suggestions found.expr }) := by
  obtain ⟨workspace, ran, settled⟩ := (settled_empty nextId).exists_run operations
  refine ⟨workspace, ran, fun empty operation found operator lhs rhs known whole => ?_⟩
  obtain ⟨chain, listed, -⟩ := Document.exists_owner known
  have intact := settled.session.intact
  let operands : Side → Expr := fun side => if side = .left then lhs else rhs
  have stands : ∀ side, found.expr.operandOn? side = some (operands side) := by
    rw [whole]
    exact Side.both .left rfl rfl
  refine ⟨chain, operation.operand found.expr, listed, intact.operands_eq known whole,
    fun _ => rfl, fun links => ?_⟩
  obtain ⟨-, after, -, -, settled', pairs⟩ :=
    settled.session.exists_pairs empty known stands links .left
  refine ⟨{ workspace with session := after }, fun side => ?_, rfl, pairs, fun ticket => ?_⟩
  · obtain ⟨first, second, chose, chose', last, pairs'⟩ :=
      settled.session.exists_pairs empty known stands links side
    cases pairs.unique pairs' settled'.intact last.intact
    let between : Workspace := { workspace with session := first }
    have chose' : between.session.choose _ _ = _ := chose'
    exact ⟨_, perform_choose chose, perform_choose chose'⟩
  · let done : Workspace := { workspace with session := after }
    have asked : done.session.request _ _ = _ :=
      settled'.request_of_pairs pairs known stands listed ticket
    exact perform_request asked

/-- Under the rule that sums of equals are equal, a sum is equal to that of what was chosen for its
summands, whichever of them was the first. -/
example :
    let rule : Rule := ⟨"sums", ["x", "y", "u", "v"].map fun name => { name },
      [⟨.named "x", .notEqual, .named "u"⟩, ⟨.named "y", .notEqual, .named "v"⟩,
        ⟨.named "x" + .named "y", .equal, .named "u" + .named "v"⟩]⟩
    let choices : List Operation :=
      [.choose ⟨0, 1⟩ ⟨.equal, .named "c"⟩, .choose ⟨0, 2⟩ ⟨.equal, .named "d"⟩]
    let asked (choices : List Operation) : Except Fault (List Link) := do
      let after ← run {} (.begin ⟨[rule]⟩ (.named "a" + .named "b") :: choices)
      let outcome ← after.perform (.request ⟨0, 0⟩ 7)
      pure outcome.suggestions
    asked choices = .ok [⟨.equal, .named "c" + .named "d"⟩] ∧
      asked choices.reverse = asked choices :=
  ⟨by decide +kernel, rfl⟩

end Workspace

end Calculation
