import Calculation.Proofs.Run

/-!
What is selected, what is chosen and what is worked on agree, whatever was done.

* `Session.Coherent`: what a user can rely on between operations.
* `Workspace.exists_run_coherent`: every run leads to a coherent session.
-/

namespace Calculation

/-! ## Coherent sessions -/

/-- What a user can rely on between operations. -/
structure Session.Coherent (session : Session) : Prop where
  /-- The node that is selected on the left exists, and is a left operand, an only one, or none. -/
  left : ∀ node, session.left = some node →
    ∃ found, session.document.node? node = some found ∧ found.side = .left
  /-- The node that is selected on the right exists, and is a right operand. -/
  right : ∀ node, session.right = some node →
    ∃ found, session.document.node? node = some found ∧ found.side = .right
  /-- Of all nodes of all chains, those have a choice that are selected. -/
  chosen : ∀ chain ∈ session.document.chains, ∀ index found, chain.nodes[index]? = some found →
    (found.choice.isSome ↔
      session.left = some (chain.idOf index) ∨ session.right = some (chain.idOf index))
  /-- The side that a choice tells is the side of its node. -/
  sided : ∀ chain ∈ session.document.chains, ∀ found ∈ chain.nodes, ∀ choice,
    found.choice = some choice → choice.side = found.side
  /-- Two nodes that are selected belong to the same step and are operands of the same operation. -/
  paired : ∀ left right, session.left = some left → session.right = some right →
    ∃ chain ∈ session.document.chains, ∃ found found',
      chain.node? left = some found ∧ chain.node? right = some found' ∧
        found.parent = found'.parent ∧ found.root = found'.root
  /-- The session works on a chain exactly as long as something is selected. -/
  busy : session.active.isSome ↔ session.left.isSome ∨ session.right.isSome
  /-- What is selected belongs to the chain that is worked on. -/
  active : ∀ node, session.left = some node ∨ session.right = some node →
    session.active = some node.chain
  /-- The root of a step is selected alone, and until it is committed or taken back no list is shown
  and no other node is admitted. -/
  root : ∀ node found, session.left = some node → session.document.node? node = some found →
    found.isRoot = true →
    session.right = none ∧ session.chooser = none ∧
      ∀ other, session.admission other = .ok .refused

namespace Session

variable {nextId : ChainId} {session : Session}

/-- The nodes of a document are the nodes of its chains. -/
theorem Tidy.node?_idOf (tidy : session.Tidy nextId) {chain : Chain}
    (mem : chain ∈ session.document.chains) (index : Nat) :
    session.document.node? (chain.idOf index) = chain.nodes[index]? := by
  have listed : session.document.find? (chain.idOf index).chain = some chain :=
    tidy.intact.find?_eq_some_iff.2 ⟨mem, rfl⟩
  rw [Document.node?_eq, listed]
  rfl

theorem Settled.coherent (settled : session.Settled nextId) : session.Coherent where
  left node held := (settled.held .left node held).2
  right node held := (settled.held .right node held).2
  chosen chain mem index found here := by
    have known := (settled.node?_idOf mem index).trans here
    rw [settled.chosen _ found known]
    constructor
    · intro held
      cases side : found.side with
      | left =>
          rw [side] at held
          exact .inl held
      | right =>
          rw [side] at held
          exact .inr held
    · intro held
      have stands : ∀ side, session.slot side = some (chain.idOf index) → found.side = side := by
        intro side held
        rcases (settled.held side _ held).2 with ⟨found', known', stands⟩
        cases Option.some.inj (known.symm.trans known')
        exact stands
      rcases held with onLeft | onRight
      · rw [stands .left onLeft]
        exact onLeft
      · rw [stands .right onRight]
        exact onRight
  sided chain mem found here choice chose := by
    rcases List.mem_iff_getElem?.1 here with ⟨index, here⟩
    exact settled.sided _ found choice ((settled.node?_idOf mem index).trans here) chose
  paired left right onLeft onRight := by
    rcases settled.held .left left onLeft with ⟨active, found, known, -⟩
    rcases settled.held .right right onRight with ⟨active', found', known', -⟩
    have sameChain : left.chain = right.chain := Option.some.inj (active.symm.trans active')
    rcases Document.exists_owner known with ⟨chain, listed, -, -, -, here⟩
    rcases Document.exists_owner known' with ⟨chain', listed', -, -, -, there⟩
    rw [← sameChain, listed] at listed'
    cases listed'
    rcases Document.mem_of_find? listed with ⟨mem, same⟩
    refine ⟨chain, mem, found, found', (Chain.node?_of_id same).trans here,
      (Chain.node?_of_id (same.trans sameChain)).trans there, ?_⟩
    exact settled.paired .left .right left right found found' (fun same => nomatch same) onLeft
      onRight known known'
  busy := by
    constructor
    · intro active
      rcases Option.isSome_iff_exists.1 active with ⟨chain, active⟩
      rcases settled.busy chain active with ⟨side, node, held⟩
      cases side with
      | left => exact .inl (Option.isSome_iff_exists.2 ⟨node, held⟩)
      | right => exact .inr (Option.isSome_iff_exists.2 ⟨node, held⟩)
    · intro selected
      rcases selected with onLeft | onRight
      · rcases Option.isSome_iff_exists.1 onLeft with ⟨node, held⟩
        rw [(settled.held .left node held).1]
        rfl
      · rcases Option.isSome_iff_exists.1 onRight with ⟨node, held⟩
        rw [(settled.held .right node held).1]
        rfl
  active node held := by
    rcases held with onLeft | onRight
    · exact (settled.held .left node onLeft).1
    · exact (settled.held .right node onRight).1
  root node found onLeft known root := by
    have held : session.slot .left = some node := onLeft
    have root := Option.isNone_iff_eq_none.1 root
    exact ⟨(settled.alone_of_root held known root).2 .right (fun same => nomatch same),
      settled.unasked .left node found held known root,
      settled.admission_eq_refused held known root⟩

end Session

/-- Whatever is done from an empty workspace on can be done, and leads to a coherent session. -/
theorem Workspace.exists_run_coherent (nextId : ChainId) (operations : List Operation) :
    ∃ workspace, ({ nextId } : Workspace).run operations = .ok workspace ∧
      workspace.session.Coherent := by
  rcases (settled_empty nextId).exists_run operations with ⟨workspace, ran, settled⟩
  exact ⟨workspace, ran, settled.session.coherent⟩

/-- Both operands of a product can be selected, and the product then takes their place. -/
example :
    let product : Expr := .named "a" * .named "b"
    let link : Link := ⟨.equal, .named "c"⟩
    let operands : List Workspace.Operation :=
      [.begin {} product, .choose ⟨0, 2⟩ link, .choose ⟨0, 1⟩ link]
    let slots (operations : List Workspace.Operation) :=
      (Workspace.run {} operations).map fun after => (after.session.left, after.session.right)
    slots operands = .ok (some ⟨0, 1⟩, some ⟨0, 2⟩) ∧
      slots (operands ++ [.choose ⟨0, 0⟩ link]) = .ok (some ⟨0, 0⟩, none) :=
  ⟨rfl, rfl⟩

end Calculation
