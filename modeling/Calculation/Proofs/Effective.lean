import Calculation.Proofs.Admission
import Calculation.Proofs.Discharge

/-!
Which rules the suggestions for a node come from, in terms of the expressions.

The rules for a node are resolved with what was chosen for its operands.  Only the operands of one
operation can have choices, and the slots say which, so what is put into the rules is what the two
slots say, the left one first (`Session.Tidy.said?_operands`).  The number of these facts is that of
the operands with a choice, and it decides which rules still suggest something.

* `Session.Tidy.said?_operands`: the facts are those of the slots, for the operation above what is
  selected, and there are none for any other node.
* `Workspace.exists_run_effective`: it is so in every state that can be reached.
-/

namespace Calculation

/-- A node says something if a choice was made at it. -/
theorem Chain.isSome_said? (chain : Chain) (index : Nat) :
    (chain.said? index).isSome = ((chain.nodes[index]?).bind Node.choice).isSome := by
  rw [said?]
  cases chain.nodes[index]? with
  | none => rfl
  | some node => exact Option.isSome_map

namespace Session

variable {nextId : ChainId} {session : Session} {node selected : NodeId} {found : Node}
  {chain : Chain} {side : Side}

/-! ## What the slots say -/

/-- What the choice at the node that is selected on the side says. -/
def saidOn? (session : Session) (side : Side) : Option Relation :=
  (session.slot side).bind fun selected => (session.document.node? selected).bind fun found =>
    found.choice.map fun choice => choice.link.relationFrom found.expr

/-- What the slots say, the left one first. -/
def facts (session : Session) : List Relation := [Side.left, .right].filterMap session.saidOn?

/-- A choice was made for whatever is selected. -/
theorem Tidy.isSome_saidOn? (tidy : session.Tidy nextId) (side : Side) :
    (session.saidOn? side).isSome = (session.slot side).isSome := by
  cases held : session.slot side with
  | none =>
      rw [saidOn?, held]
      rfl
  | some selected =>
      obtain ⟨-, found, known, rfl⟩ := tidy.held side selected held
      have chose := (tidy.chosen selected found known).2 held
      rw [saidOn?, held, Option.bind_some, known, Option.bind_some, Option.isSome_map, chose]
      rfl

/-- What the choice at a node of the document says. -/
theorem said?_eq_of_node? (known : session.document.node? node = some found)
    (listed : session.document.find? node.chain = some chain) :
    chain.said? node.index =
      found.choice.map fun choice => choice.link.relationFrom found.expr := by
  obtain ⟨chain', listed', -, -, -, here⟩ := Document.exists_owner known
  cases Option.some.inj (listed.symm.trans listed')
  rw [Chain.said?, here, Option.bind_some]

/-! ## What the operands say -/

/-- The index of the operand of a node on the side, if it has one. -/
def operandIndex? (node : NodeId) (found : Node) (side : Side) : Option Nat :=
  (found.expr.operandOn? side).map fun _ => node.index + found.expr.offset side

/-- What is selected on a side, and is an operand of the node, says what the slot says. -/
theorem Tidy.said?_eq_saidOn? (tidy : session.Tidy nextId)
    (known : session.document.node? node = some found)
    (listed : session.document.find? node.chain = some chain)
    (held : session.slot side = some selected)
    (operand : session.document.OperandOf selected node side) :
    (operandIndex? node found side).bind chain.said? = session.saidOn? side := by
  obtain ⟨-, below, there, -⟩ := tidy.held side selected held
  obtain ⟨some, rfl⟩ := (tidy.intact.operandOf_iff_of_operation known).1 operand
  obtain ⟨part, stands⟩ := Option.isSome_iff_exists.1 some
  rw [saidOn?, held, Option.bind_some, there, Option.bind_some, ← said?_eq_of_node? there listed,
    operandIndex?, stands]
  rfl

/-- An operand that is not selected says nothing. -/
theorem Tidy.said?_eq_none (tidy : session.Tidy nextId)
    (known : session.document.node? node = some found)
    (listed : session.document.find? node.chain = some chain)
    (other : ∀ selected, session.slot side = some selected →
      ¬session.document.OperandOf selected node side) :
    (operandIndex? node found side).bind chain.said? = none := by
  cases stands : found.expr.operandOn? side with
  | none =>
      rw [operandIndex?, stands]
      rfl
  | some part =>
      have operand := (tidy.intact.operandOf_iff_of_operation known).2
        ⟨Option.isSome_iff_exists.2 ⟨part, stands⟩, rfl⟩
      obtain ⟨⟨below, there⟩, -⟩ := tidy.intact.exists_nodes_of_operandOf operand
      obtain ⟨-, -, onSide⟩ := (tidy.intact.operandOf_iff there).1 operand
      have unchosen : below.choice = none := by
        refine Option.not_isSome_iff_eq_none.1 fun chose => ?_
        have held := (tidy.chosen _ below there).1 chose
        rw [onSide] at held
        exact other _ held operand
      rw [operandIndex?, stands, Option.map_some, Option.bind_some,
        said?_eq_of_node? there listed, unchosen]
      rfl

/-- What is selected on a side is no operand on the other one. -/
theorem Tidy.side_of_operandOf (tidy : session.Tidy nextId) {place : Side}
    (held : session.slot side = some selected)
    (operand : session.document.OperandOf selected node place) : place = side := by
  obtain ⟨-, below, there, onSide⟩ := tidy.held side selected held
  obtain ⟨-, -, stands⟩ := (tidy.intact.operandOf_iff there).1 operand
  exact stands.symm.trans onSide

/-- The operands of the operation above what is selected say what the slots say, and those of any
other node say nothing. -/
theorem Tidy.said?_operands (tidy : session.Tidy nextId)
    (known : session.document.node? node = some found)
    (listed : session.document.find? node.chain = some chain) :
    (session.Overrides node → found.operands.filterMap chain.said? = session.facts) ∧
      (¬session.Overrides node → found.operands.filterMap chain.said? = []) := by
  obtain ⟨chain', listed', -, -, -, here⟩ := Document.exists_owner known
  cases Option.some.inj (listed.symm.trans listed')
  have whole := tidy.intact.chains chain (Document.mem_of_find? listed).1
  have sides : found.operands.filterMap chain.said? =
      [Side.left, .right].filterMap fun side =>
        (operandIndex? node found side).bind chain.said? := by
    rw [whole.operands_eq here, Node.operandIndices_eq, List.filterMap_filterMap]
    rfl
  rw [sides]
  constructor
  · intro above
    obtain ⟨side, selected, place, held, operand⟩ := above
    refine List.filterMap_congr fun beside _ => ?_
    cases held' : session.slot beside with
    | none =>
        rw [saidOn?, held']
        exact tidy.said?_eq_none known listed fun _ held => nomatch held'.symm.trans held
    | some selected' =>
        obtain ⟨place', operand'⟩ := tidy.together.operation _ _ _ _ _ _ held held' operand
        cases tidy.side_of_operandOf held' operand'
        exact tidy.said?_eq_saidOn? known listed held' operand'
  · intro apart
    refine List.filterMap_eq_nil_iff.2 fun beside _ => tidy.said?_eq_none known listed ?_
    intro selected held operand
    exact apart ⟨beside, selected, beside, held, operand⟩

/-! ## All states -/

/-- Which rules the suggestions for a node come from: those of the chain, with facts put into
them. -/
structure Effective (session : Session) (node : NodeId) (found : Node) (chain : Chain)
    (facts : List Relation) : Prop where
  theory : session.effectiveTheory node = .ok (some (facts.foldl Theory.resolve chain.theory))
  /-- There are no facts unless the node is the operation above what is selected. -/
  apart : ¬session.Overrides node → facts = []
  /-- Then the facts are what the slots say, the left one before the right one. -/
  above : session.Overrides node → facts = session.facts
  /-- Every slot that is full says something. -/
  said : ∀ side, (session.saidOn? side).isSome = (session.slot side).isSome
  /-- There are as many facts as operands with a choice, which are not more than two. -/
  length : facts.length = found.operands.countP fun operand =>
    ((chain.nodes[operand]?).bind Node.choice).isSome
  length_le : facts.length ≤ 2
  /-- What is left of the rules has one disjunct less for each of the facts. -/
  rules : ∀ left ∈ (facts.foldl Theory.resolve chain.theory).rules, ∃ rule ∈ chain.theory.rules,
    Rule.Leaves facts rule left ∧ rule.Remains facts.length left
  /-- What is suggested comes from the rules with one disjunct more than there are facts. -/
  suggestions : ∀ ticket step links, session.request node ticket = .ok step →
    step.answer = some links →
    links = (facts.foldl Theory.resolve chain.theory).suggestions found.expr ∧
    links = (chain.theory.rules.filter fun rule =>
      rule.disjuncts.length = facts.length + 1).flatMap fun rule =>
        (facts.foldl Theory.resolve ⟨[rule]⟩).suggestions found.expr
  /-- Nothing is left of a simple rule once there is a fact. -/
  simple : facts ≠ [] → ∀ rule, rule.isSimple = true →
    (facts.foldl Theory.resolve ⟨[rule]⟩).rules = []
  /-- A rule with four disjuncts or more suggests nothing. -/
  large : ∀ rule : Rule, 4 ≤ rule.disjuncts.length →
    (facts.foldl Theory.resolve ⟨[rule]⟩).suggestions found.expr = []

theorem Tidy.effective (tidy : session.Tidy nextId)
    (known : session.document.node? node = some found)
    (listed : session.document.find? node.chain = some chain) :
    session.Effective node found chain (found.operands.filterMap chain.said?) := by
  obtain ⟨above, apart⟩ := tidy.said?_operands known listed
  have effective := tidy.effectiveTheory_eq known listed
  have few : (found.operands.filterMap chain.said?).length ≤ 2 := by
    by_cases overrides : session.Overrides node
    · rw [above overrides]
      exact List.length_filterMap_le _ _
    · rw [apart overrides]
      exact Nat.zero_le 2
  constructor
  case theory => exact effective
  case apart => exact apart
  case above => exact above
  case said => exact tidy.isSome_saidOn?
  case length =>
    rw [List.length_filterMap_eq_countP]
    exact congrArg (fun chosen => found.operands.countP chosen) (funext chain.isSome_said?)
  case length_le => exact few
  case rules =>
    intro left mem
    obtain ⟨rule, rule_listed, leaves⟩ := Theory.exists_leaves_of_mem mem
    exact ⟨rule, rule_listed, leaves, leaves.remains⟩
  case suggestions =>
    intro ticket step links asked answer
    obtain ⟨chain', found', listed', known', suggested⟩ := tidy.of_answered asked answer
    cases listed.symm.trans listed'
    cases known.symm.trans known'
    exact ⟨suggested, suggested.trans (Theory.suggestions_foldl_resolve _ chain.theory found.expr)⟩
  case simple => exact fun some rule simple => Theory.rules_eq_nil_of_isSimple simple some
  case large => exact fun rule large => Theory.suggestions_eq_nil (by omega) found.expr

end Session

/-- Whatever is done from an empty workspace on can be done, and then the rules for a node are those
of its chain, resolved with what is selected of its operands. -/
theorem Workspace.exists_run_effective (nextId : ChainId) (operations : List Operation) :
    ∃ workspace, ({ nextId } : Workspace).run operations = .ok workspace ∧
      ∀ node found, workspace.session.document.node? node = some found →
        ∃ chain facts, workspace.session.document.find? node.chain = some chain ∧
          workspace.session.Effective node found chain facts := by
  obtain ⟨workspace, ran, settled⟩ := (settled_empty nextId).exists_run operations
  refine ⟨workspace, ran, fun node found known => ?_⟩
  obtain ⟨chain, listed, -⟩ := Document.exists_owner known
  exact ⟨chain, _, listed, settled.session.effective known listed⟩

/-- A choice for the left summand is put into a rule with a condition, and what is left of the rule
suggests something for the sum. -/
theorem Workspace.exists_run_effective_monotone :
    let x : Symbol := { name := "x" }
    let y : Symbol := { name := "y" }
    let z : Symbol := { name := "z" }
    let a : Expr := .named "a"
    let b : Expr := .named "b"
    let c : Expr := .named "c"
    let theory : Theory := ⟨[.simple "order" [] ⟨a, .less, c⟩,
      .implication "monotone" [x, y, z] ⟨.atom x + .atom z, .less, .atom y + .atom z⟩
        [⟨.atom x, .less, .atom y⟩]]⟩
    let operations : List Operation := [.begin theory (a + b), .choose ⟨0, 1⟩ ⟨.less, c⟩]
    ∃ workspace found chain step, run {} operations = .ok workspace ∧
      workspace.session.document.node? ⟨0, 0⟩ = some found ∧
      workspace.session.document.find? 0 = some chain ∧
      workspace.session.Overrides ⟨0, 0⟩ ∧
      workspace.session.Effective ⟨0, 0⟩ found chain [⟨a, .less, c⟩] ∧
      workspace.session.request ⟨0, 0⟩ 0 = .ok step ∧ step.answer = some [⟨.less, c + b⟩] ∧
      [⟨.less, c + b⟩] = (chain.theory.rules.filter fun rule =>
        rule.disjuncts.length = 2).flatMap fun rule =>
          (Theory.resolve ⟨[rule]⟩ ⟨a, .less, c⟩).suggestions found.expr := by
  intro x y z a b c theory operations
  have came : ∀ workspace ∈ (run {} operations).toOption,
      workspace.session.facts = [⟨a, .less, c⟩] ∧
      (∃ step ∈ (workspace.session.request ⟨0, 0⟩ 0).toOption,
        step.answer = some [⟨.less, c + b⟩]) ∧
      ∃ found ∈ workspace.session.document.node? ⟨0, 0⟩,
        ∀ chain ∈ workspace.session.document.find? 0, found.operands.countP (fun operand =>
          ((chain.nodes[operand]?).bind Node.choice).isSome) = 1 := by
    decide +kernel
  obtain ⟨workspace, ran, effective⟩ := exists_run_effective 0 operations
  obtain ⟨said, ⟨step, asked, answer⟩, found, known, chose⟩ :=
    came workspace (congrArg Except.toOption ran)
  obtain ⟨chain, facts, listed, effective⟩ := effective _ _ known
  have above : workspace.session.Overrides ⟨0, 0⟩ := by
    by_contra apart
    have none := effective.length
    rw [effective.apart apart, chose chain listed] at none
    cases none
  obtain rfl : facts = [⟨a, .less, c⟩] := (effective.above above).trans said
  have asked : workspace.session.request ⟨0, 0⟩ 0 = .ok step := by
    cases done : workspace.session.request ⟨0, 0⟩ 0 with
    | error fault =>
        rw [done] at asked
        cases asked
    | ok step' =>
        rw [done] at asked
        cases asked
        rfl
  exact ⟨workspace, found, chain, step, ran, known, listed, above, effective, asked, answer,
    (effective.suggestions 0 step _ asked answer).2⟩

end Calculation
