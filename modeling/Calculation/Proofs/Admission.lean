import Calculation.Proofs.Standing
import Calculation.Proofs.Transition

/-!
Which nodes are admitted beside what is selected, in terms of the expressions.

A decision looks at one of the selected nodes only, and compares indices.  What it comes to does not
depend on which of them that is, since two selected nodes are operands of one operation
(`Session.Together`), and the indices say what the expressions say (`Document.Intact.operandOf_iff`,
`Document.Intact.beside_iff`).

* `Session.Together.exists_admission`: a node is admitted if nothing is selected or only the other
  operand of its operation is, and replaces what is selected if that is an operand of it.
* `Session.Together.admission_swap`: it does not matter which slot is looked at first.
* `Workspace.exists_run_decides`: it is so in every state that can be reached, and what is admitted
  goes to a slot that is empty.
-/

namespace Calculation

namespace Session

variable {nextId : ChainId} {session : Session} {node selected : NodeId} {found before : Node}
  {side : Side}

/-! ## Nodes and what is selected -/

/-- The node is in the document, and all that is selected, if anything, is the other operand of the
same binary operation. -/
def Fits (session : Session) (node : NodeId) : Prop :=
  (∃ found, session.document.node? node = some found) ∧
    ((∀ side, session.slot side = none) ∨
      ∃ side selected, session.slot side = some selected ∧ session.slot side.other = none ∧
        session.document.Beside selected node)

/-- The node is the operation that a selected node is an operand of. -/
def Overrides (session : Session) (node : NodeId) : Prop :=
  ∃ side selected place, session.slot side = some selected ∧
    session.document.OperandOf selected node place

/-- The session with each node in the other slot.  It looks first at what was looked at second. -/
def swap (session : Session) : Session :=
  { session with left := session.right, right := session.left }

theorem swap_swap (session : Session) : session.swap.swap = session := rfl

theorem slot_swap (session : Session) (side : Side) :
    session.swap.slot side = session.slot side.other := by
  cases side <;> rfl

theorem Fits.swap (fits : session.Fits node) : session.swap.Fits node := by
  rcases fits with ⟨known, empty | ⟨side, selected, held, free, beside⟩⟩
  · exact ⟨known, .inl fun side => (slot_swap session side).trans (empty side.other)⟩
  · refine ⟨known, .inr ⟨side.other, selected, ?_, ?_, beside⟩⟩
    · rwa [slot_swap, Side.other_other]
    · rwa [slot_swap, Side.other_other]

theorem Overrides.swap (above : session.Overrides node) : session.swap.Overrides node := by
  obtain ⟨side, selected, place, held, operand⟩ := above
  refine ⟨side.other, selected, place, ?_, operand⟩
  rwa [slot_swap, Side.other_other]

/-- One slot is full and the other one empty. -/
theorem not_full (held : session.slot side = some selected)
    (free : session.slot side.other = none) : ¬(session.left.isSome ∧ session.right.isSome) := by
  intro full
  obtain ⟨left, right⟩ := full
  cases side with
  | left => exact Option.not_isSome_iff_eq_none.2 free right
  | right => exact Option.not_isSome_iff_eq_none.2 free left

/-- What fits is the other operand beside whatever is selected, and the slot there is empty. -/
theorem Fits.beside (fits : session.Fits node) (held : session.slot side = some selected) :
    session.slot side.other = none ∧ session.document.Beside selected node := by
  rcases fits with ⟨-, empty | ⟨side', selected', held', free, beside⟩⟩
  · cases (empty side).symm.trans held
  · by_cases same : side = side'
    · subst same
      cases Option.some.inj (held.symm.trans held')
      exact ⟨free, beside⟩
    · rw [Side.eq_other_of_ne same, free] at held
      cases held

/-! ## Decisions -/

/-- What is not in the document is refused. -/
theorem admission_of_unknown (unknown : session.document.node? node = none) :
    session.admission node = .ok .refused := by
  cases owner : session.document.owner? node with
  | none =>
      rw [admission, owner]
      rfl
  | some chain =>
      obtain ⟨found, known⟩ := Document.exists_known owner
      cases unknown.symm.trans known

/-- What is decided about a node of the document, compared with a selected one. -/
theorem exists_admission_of_selected (intact : session.document.Intact nextId)
    (known : session.document.node? node = some found) (chosen : session.selected = some selected)
    (was : session.document.node? selected = some before) :
    ∃ admission, session.admission node = .ok admission ∧
      (admission = .replacing ↔ ∃ side, session.document.OperandOf selected node side) ∧
      (admission = .admitted ↔ ¬(session.left.isSome ∧ session.right.isSome) ∧
        session.document.Beside selected node) := by
  rw [intact.exists_operandOf_iff was known, intact.beside_iff was known]
  obtain ⟨chain, listed, owner, -, asked, -⟩ := Document.exists_owner known
  rw [admission, owner, chosen]
  by_cases apart : selected = node ∨ selected.chain ≠ node.chain
  · refine ⟨.refused, if_pos apart, ?_, ?_⟩
    · simp only [reduceCtorEq, false_iff]
      intro operand
      obtain ⟨different, sameChain, -⟩ := operand
      exact apart.elim different fun other => other sameChain
    · simp only [reduceCtorEq, false_iff]
      intro beside
      obtain ⟨-, different, sameChain, -⟩ := beside
      exact apart.elim different fun other => other sameChain
  · obtain ⟨different, sameChain⟩ := not_or.1 apart
    have sameChain := Decidable.not_not.1 sameChain
    obtain ⟨chain', listed', -, -, asked', -⟩ := Document.exists_owner was
    rw [sameChain, listed] at listed'
    cases listed'
    simp only [if_neg apart, asked, asked', bind, Except.bind]
    by_cases root : before.root = found.root
    · rw [if_neg (not_not_intro root)]
      by_cases above : before.parent = some node.index
      · have notBeside : before.parent ≠ found.parent := by
          intro parent
          have operand : session.document.OperandOf node node found.side :=
            (intact.operandOf_iff known).2 ⟨rfl, parent.symm.trans above, rfl⟩
          exact intact.ne_of_operandOf operand rfl
        rw [if_pos above]
        exact ⟨.replacing, rfl, by simp [different, sameChain, root, above],
          by simp [notBeside]⟩
      · rw [if_neg above]
        by_cases full : session.left.isSome ∧ session.right.isSome
        · exact ⟨.refused, if_pos full, by simp [above], by simp [full]⟩
        · rw [if_neg full]
          by_cases parent : before.parent = found.parent
          · exact ⟨.admitted, if_pos parent, by simp [above],
              by simp [full, different, sameChain, root, parent]⟩
          · exact ⟨.refused, if_neg parent, by simp [above], by simp [parent]⟩
    · exact ⟨.refused, if_pos root, by simp [root], by simp [root]⟩

/-- What is selected is in the document, and the nodes in both slots are operands of the same
operations. -/
structure Together (session : Session) : Prop where
  known : ∀ side selected, session.slot side = some selected →
    ∃ found, session.document.node? selected = some found
  operation : ∀ side side' selected selected' operation place, session.slot side = some selected →
    session.slot side' = some selected' → session.document.OperandOf selected operation place →
    ∃ place', session.document.OperandOf selected' operation place'

namespace Together

theorem swap (together : session.Together) : session.swap.Together where
  known side selected held := together.known _ selected (slot_swap session side ▸ held)
  operation side side' selected selected' operation place held held' :=
    together.operation _ _ selected selected' operation place (slot_swap session side ▸ held)
      (slot_swap session side' ▸ held')

/-- One of the selected nodes tells whether a node is the operation above. -/
theorem overrides_iff (together : session.Together) (held : session.slot side = some selected) :
    session.Overrides node ↔ ∃ place, session.document.OperandOf selected node place := by
  constructor
  · intro above
    obtain ⟨side', selected', place, held', operand⟩ := above
    exact together.operation _ _ _ _ _ _ held' held operand
  · intro above
    obtain ⟨place, operand⟩ := above
    exact ⟨side, selected, place, held, operand⟩

/-- A node is admitted if it fits what is selected, and replaces what is selected if it is the
operation above. -/
theorem exists_admission (together : session.Together) (intact : session.document.Intact nextId)
    (node : NodeId) :
    ∃ admission, session.admission node = .ok admission ∧
      (admission = .admitted ↔ session.Fits node) ∧
      (admission = .replacing ↔ session.Overrides node) := by
  cases known : session.document.node? node with
  | none =>
      refine ⟨.refused, admission_of_unknown known, ?_, ?_⟩
      · simp [Fits, known]
      · simp only [reduceCtorEq, false_iff]
        intro above
        obtain ⟨side, selected, place, -, operand⟩ := above
        obtain ⟨-, found, known'⟩ := intact.exists_nodes_of_operandOf operand
        cases known.symm.trans known'
  | some found =>
      cases chosen : session.selected with
      | none =>
          have empty := slot_eq_none_of_selected chosen
          obtain ⟨chain, -, owner, -⟩ := Document.exists_owner known
          refine ⟨.admitted, ?_, ?_, ?_⟩
          · rw [admission, owner, chosen]
            rfl
          · simp [Fits, known, empty]
          · simp [Overrides, empty]
      | some selected =>
          obtain ⟨side, held, alone⟩ := exists_slot_of_selected chosen
          obtain ⟨before, was⟩ := together.known side selected held
          obtain ⟨admission, decided, replacing, admitted⟩ :=
            exists_admission_of_selected intact known chosen was
          refine ⟨admission, decided, admitted.trans ?_,
            replacing.trans (together.overrides_iff held).symm⟩
          constructor
          · intro fits
            obtain ⟨notFull, beside⟩ := fits
            exact ⟨⟨found, known⟩,
              .inr ⟨side, selected, held, alone notFull _ side.other_ne, beside⟩⟩
          · intro fits
            obtain ⟨free, beside⟩ := fits.beside held
            exact ⟨not_full held free, beside⟩

/-- It does not matter which of the slots is looked at first. -/
theorem admission_swap (together : session.Together) (intact : session.document.Intact nextId)
    (node : NodeId) : session.swap.admission node = session.admission node := by
  obtain ⟨first, decided, admitted, replacing⟩ := together.exists_admission intact node
  obtain ⟨second, decided', admitted', replacing'⟩ := together.swap.exists_admission intact node
  have sameAdmitted : second = .admitted ↔ first = .admitted :=
    (admitted'.trans ⟨fun fits => swap_swap session ▸ fits.swap, Fits.swap⟩).trans admitted.symm
  have sameReplacing : second = .replacing ↔ first = .replacing :=
    (replacing'.trans ⟨fun above => swap_swap session ▸ above.swap, Overrides.swap⟩).trans
      replacing.symm
  rw [decided, decided']
  cases first <;> cases second <;> simp_all

end Together

theorem Tidy.together (tidy : session.Tidy nextId) : session.Together where
  known side selected held := by
    obtain ⟨-, found, known, -⟩ := tidy.held side selected held
    exact ⟨found, known⟩
  operation side side' selected selected' operation place held held' operand := by
    by_cases same : side = side'
    · subst same
      cases Option.some.inj (held.symm.trans held')
      exact ⟨place, operand⟩
    · obtain ⟨active, found, known, -⟩ := tidy.held side selected held
      obtain ⟨active', found', known', -⟩ := tidy.held side' selected' held'
      have chains := Option.some.inj (active.symm.trans active')
      obtain ⟨parents, -⟩ :=
        tidy.paired side side' selected selected' found found' same held held' known known'
      obtain ⟨chain, parent, -⟩ := (tidy.intact.operandOf_iff known).1 operand
      exact ⟨found'.side, (tidy.intact.operandOf_iff known').2
        ⟨chains.symm.trans chain, parents.symm.trans parent, rfl⟩⟩

/-! ## Nodes that are refused -/

end Session

/-- The nodes are not of one step, are the same, or stand elsewhere than an operation and its
operands: the second one deeper than the first, or more than one operation above it, or as deep
below another operation. -/
inductive Document.Remote (document : Document) (selected node : NodeId) : Prop
  | unknown (unknown : document.node? node = none)
  | itself (same : selected = node)
  | chain (other : selected.chain ≠ node.chain)
  | stands {step step' : Nat} {way way' : Way} {part part' : Expr}
      (stands : document.Stands selected step way part)
      (stands' : document.Stands node step' way' part')
      (apart : step ≠ step' ∨ way.length < way'.length ∨ way'.length + 1 < way.length ∨
        way.length = way'.length ∧ way.dropLast ≠ way'.dropLast)

namespace Document.Remote

variable {nextId : ChainId} {document : Document} {selected node : NodeId}

theorem not_operandOf (remote : document.Remote selected node) (intact : document.Intact nextId)
    (side : Side) : ¬document.OperandOf selected node side := by
  intro operand
  cases remote with
  | unknown unknown =>
      obtain ⟨-, found, known⟩ := intact.exists_nodes_of_operandOf operand
      cases unknown.symm.trans known
  | itself same => exact intact.ne_of_operandOf operand same
  | chain other => exact other operand.1
  | stands stands stands' apart =>
      obtain ⟨same, rfl⟩ := intact.way_eq_of_operandOf stands stands' operand
      rw [List.length_append, List.length_singleton] at apart
      rcases apart with step | deeper | higher | ⟨level, -⟩
      · exact step same
      · omega
      · omega
      · omega

theorem not_beside (remote : document.Remote selected node) (intact : document.Intact nextId) :
    ¬document.Beside selected node := by
  intro beside
  have ⟨operation, side, _, operand, operand'⟩ := beside
  cases remote with
  | unknown unknown =>
      obtain ⟨⟨found, known⟩, -⟩ := intact.exists_nodes_of_operandOf operand'
      cases unknown.symm.trans known
  | itself same => exact intact.ne_of_operandOf_other operand operand' same
  | chain other => exact other (operand.1.trans operand'.1.symm)
  | stands stands stands' apart =>
      obtain ⟨same, length, above⟩ := intact.ways_of_beside stands stands' beside
      rcases apart with step | deeper | higher | ⟨-, cousin⟩
      · exact step same
      · omega
      · omega
      · exact cousin above

end Document.Remote

namespace Session

variable {nextId : ChainId} {session : Session} {node selected : NodeId} {found : Node}
  {side : Side}

/-- What is remote from a selected node neither fits what is selected nor overrides it. -/
theorem Together.not_fits_of_remote (together : session.Together)
    (intact : session.document.Intact nextId) (held : session.slot side = some selected)
    (remote : session.document.Remote selected node) :
    ¬session.Fits node ∧ ¬session.Overrides node := by
  constructor
  · intro fits
    exact remote.not_beside intact (fits.beside held).2
  · intro above
    obtain ⟨place, operand⟩ := (together.overrides_iff held).1 above
    exact remote.not_operandOf intact place operand

/-! ## Where a choice goes -/

/-- What is admitted stands on a side whose slot is empty. -/
theorem Tidy.slot_eq_none_of_admitted (tidy : session.Tidy nextId)
    (decided : session.admission node = .ok .admitted)
    (known : session.document.node? node = some found) : session.slot found.side = none := by
  obtain ⟨admission, decided', admits⟩ := tidy.exists_admits node
  cases decided.symm.trans decided'
  cases admits with
  | alone known' empty => exact empty found.side
  | beside known' held alone was different chain root parent =>
      cases Option.some.inj (known.symm.trans known')
      exact alone _ (tidy.side_ne_of_beside known held was different chain root parent).symm

/-- A choice for a node that is admitted fills the slot of its side, and leaves the other one. -/
theorem slot_of_choose {link : Link} {step : Transition Bool}
    (decided : session.admission node = .ok .admitted)
    (known : session.document.node? node = some found)
    (done : session.choose node link = .ok step) (answer : step.answer = true) :
    step.session.slot found.side = some node ∧
      step.session.slot found.side.other = session.slot found.side.other := by
  rcases of_choose done with rfl | ⟨admission, active, ready, cleared, placed, decided', -,
    activated, prepared, inserted, rfl⟩
  · cases answer
  · cases decided.symm.trans decided'
    rcases prepared with ⟨replacing, -⟩ | ⟨-, rfl, -⟩
    · cases replacing
    have slots : ∀ side, ready.slot side = session.slot side := by
      intro side
      rcases of_activate activated with ⟨-, rfl⟩ | ⟨-, rfl⟩
      · exact slot_active ..
      · rfl
    have document := document_of_activate activated
    rcases of_place inserted with rfl | ⟨chain, found', later, listed, asked, -, rfl⟩
    · cases answer
    · obtain ⟨chain', listed', -, -, asked', -⟩ := Document.exists_owner known
      rw [document, listed'] at listed
      cases listed
      cases asked.symm.trans asked'
      refine ⟨?_, ?_⟩
      · rw [slot_document, slot_setSlot]
      · rw [slot_document, slot_setSlot_of_ne found.side.other_ne, slot_chooser, slots]

/-! ## All states -/

/-- What a session decides about a node. -/
structure Decides (session : Session) (node : NodeId) : Prop where
  /-- The node is admitted if nothing is selected, or only the other operand of its operation. -/
  admitted : session.admission node = .ok .admitted ↔ session.Fits node
  /-- The node replaces what is selected if it is the operation above. -/
  replacing : session.admission node = .ok .replacing ↔ session.Overrides node
  /-- The node is refused in all other cases. -/
  refused : session.admission node = .ok .refused ↔ ¬session.Fits node ∧ ¬session.Overrides node
  /-- So it is if the node is remote from one that is selected. -/
  remote : ∀ side selected, session.slot side = some selected →
    session.document.Remote selected node → session.admission node = .ok .refused
  /-- It does not matter which of the slots is looked at first. -/
  swap : session.swap.admission node = session.admission node
  /-- Any link can be chosen for a node that is admitted, which goes to the slot of its side.  That
  slot was empty, and the other one stays as it is. -/
  choose : session.admission node = .ok .admitted → ∀ link, ∃ step found,
    session.choose node link = .ok step ∧ step.answer = true ∧
    session.document.node? node = some found ∧ session.slot found.side = none ∧
    step.session.slot found.side = some node ∧
    step.session.slot found.side.other = session.slot found.side.other

theorem Settled.decides (settled : session.Settled nextId) (node : NodeId) :
    session.Decides node := by
  obtain ⟨admission, decided, admitted, replacing⟩ :=
    settled.together.exists_admission settled.intact node
  have refused : session.admission node = .ok .refused ↔
      ¬session.Fits node ∧ ¬session.Overrides node := by
    rw [← admitted, ← replacing, decided, Except.ok.injEq]
    cases admission <;> simp
  constructor
  case admitted => rw [decided, Except.ok.injEq, admitted]
  case replacing => rw [decided, Except.ok.injEq, replacing]
  case refused => exact refused
  case remote =>
    intro side selected held remote
    exact refused.2 (settled.together.not_fits_of_remote settled.intact held remote)
  case swap => exact settled.together.admission_swap settled.intact node
  case choose =>
    intro allowed link
    obtain ⟨admission', decided', admits⟩ := settled.exists_admits node
    cases allowed.symm.trans decided'
    obtain ⟨step, done, -, answer, -⟩ :=
      settled.exists_choose_of_admits allowed admits (fun same => nomatch same) link
    cases allowed.symm.trans decided
    obtain ⟨⟨found, known⟩, -⟩ := admitted.1 rfl
    exact ⟨step, found, done, answer, known, settled.slot_eq_none_of_admitted allowed known,
      slot_of_choose allowed known done answer⟩

end Session

/-- Whatever is done from an empty workspace on can be done, and then the expressions and what is
selected in them decide which nodes are admitted. -/
theorem Workspace.exists_run_decides (nextId : ChainId) (operations : List Operation) :
    ∃ workspace, ({ nextId } : Workspace).run operations = .ok workspace ∧
      ∀ node, workspace.session.Decides node := by
  obtain ⟨workspace, ran, settled⟩ := (settled_empty nextId).exists_run operations
  exact ⟨workspace, ran, settled.session.decides⟩

/-- Beside the first operand of a sum in a product of sums, its second operand is admitted, the sum
replaces it, and all others are refused. -/
example :
    let sum : Expr := .named "a" + .named "b"
    let operations : List Workspace.Operation :=
      [.begin {} (sum * sum), .choose ⟨0, 2⟩ ⟨.equal, .named "c"⟩]
    (Workspace.run {} operations).map (fun after =>
        (List.range 8).map fun index => (after.session.admission ⟨0, index⟩).toOption) =
      .ok [some .refused, some .replacing, some .refused, some .admitted, some .refused,
        some .refused, some .refused, some .refused] :=
  rfl

end Calculation
