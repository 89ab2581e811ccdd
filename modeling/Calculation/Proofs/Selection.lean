import Calculation.Proofs.Document
import Calculation.Session.Chooser
import Calculation.Session.Selection

/-!
What is selected and what is chosen in a document go together.

`Session.Tidy` is what the parts of an operation can rely on: what is in the slots is known and
stands on the right side, and choices are where the slots say, and nowhere else.  A slot and the
choice at its node only change together (`Session.Tidy.mark`), when a slot is emptied and when a
node is put into one.  Between operations the session is `Session.Settled`: it has let go of its
chain if nothing is selected.

* `Session.Tidy.exists_admits`: deciding about a node never fails.
* `Session.Tidy.side_ne_of_beside`: a node that is admitted beside another stands on the other side.
  Nothing checks that the slot there is empty.  It is, since no two nodes of a chain have the same
  place.
* `Session.Tidy.admission_eq_refused`: nothing is admitted beside the root of a step.
-/

namespace Calculation

/-- There are only two sides. -/
theorem Side.eq_of_ne {side one other : Side} (different : one ≠ other) (away : one ≠ side) :
    other = side := by
  cases side <;> cases one <;> cases other <;> first | rfl | contradiction

namespace Session

variable {nextId : ChainId} {session : Session} {node : NodeId} {found : Node}

/-! ## Slots -/

@[simp] theorem slot_setSlot (session : Session) (side : Side) (held : Option NodeId) :
    (session.setSlot side held).slot side = held := by
  cases side <;> rfl

theorem slot_setSlot_of_ne {side other : Side} (different : other ≠ side) (held : Option NodeId) :
    (session.setSlot side held).slot other = session.slot other := by
  cases side <;> cases other <;> first | rfl | exact absurd rfl different

@[simp] theorem active_setSlot (side : Side) (held : Option NodeId) :
    (session.setSlot side held).active = session.active := by
  cases side <;> rfl

@[simp] theorem chooser_setSlot (side : Side) (held : Option NodeId) :
    (session.setSlot side held).chooser = session.chooser := by
  cases side <;> rfl

@[simp] theorem slot_document (document : Document) (side : Side) :
    ({ session with document } : Session).slot side = session.slot side := by
  cases side <;> rfl

@[simp] theorem slot_chooser (chooser : Option Ticket) (side : Side) :
    ({ session with chooser } : Session).slot side = session.slot side := by
  cases side <;> rfl

@[simp] theorem slot_active (active : Option ChainId) (side : Side) :
    ({ session with active } : Session).slot side = session.slot side := by
  cases side <;> rfl

theorem slot_eq_none_of_selected (empty : session.selected = none) (side : Side) :
    session.slot side = none := by
  rw [selected] at empty
  cases held : session.left with
  | some node =>
      rw [held] at empty
      cases empty
  | none =>
      rw [held] at empty
      cases side with
      | left => exact held
      | right => exact empty

/-- The selected node is in a slot, and the other slot is empty unless both are full. -/
theorem exists_slot_of_selected (chosen : session.selected = some node) :
    ∃ side, session.slot side = some node ∧
      (¬(session.left.isSome ∧ session.right.isSome) →
        ∀ other, other ≠ side → session.slot other = none) := by
  rw [selected] at chosen
  cases held : session.left with
  | some node' =>
      rw [held] at chosen
      refine ⟨.left, held.trans chosen, fun notBoth other different => ?_⟩
      cases other with
      | left => exact absurd rfl different
      | right => exact Option.not_isSome_iff_eq_none.1 fun full => notBoth ⟨rfl, full⟩
  | none =>
      rw [held] at chosen
      refine ⟨.right, chosen, fun _ other different => ?_⟩
      cases other with
      | left => exact held
      | right => exact absurd rfl different

/-! ## Tidy sessions -/

/-- A session whose slots and choices go together.  It may work on a chain with nothing selected. -/
structure Tidy (nextId : ChainId) (session : Session) : Prop where
  intact : session.document.Intact nextId
  /-- What is selected is a node on the side of its slot, and of the chain that is worked on. -/
  held : ∀ side node, session.slot side = some node → session.active = some node.chain ∧
    ∃ found, session.document.node? node = some found ∧ found.side = side
  /-- A choice was made for what is selected and for nothing else. -/
  chosen : ∀ node found, session.document.node? node = some found →
    (found.choice.isSome ↔ session.slot found.side = some node)
  /-- A choice knows the side of its node. -/
  sided : ∀ node found choice, session.document.node? node = some found →
    found.choice = some choice → choice.side = found.side
  /-- Two nodes that are selected are the operands of one operation. -/
  paired : ∀ side other node node' found found', side ≠ other → session.slot side = some node →
    session.slot other = some node' → session.document.node? node = some found →
    session.document.node? node' = some found' →
    found.parent = found'.parent ∧ found.root = found'.root
  /-- No list is shown while the root of a step is selected. -/
  unasked : ∀ side node found, session.slot side = some node →
    session.document.node? node = some found → found.parent = none → session.chooser = none

/-- A session between operations. -/
structure Settled (nextId : ChainId) (session : Session) : Prop extends session.Tidy nextId where
  /-- The session works on a chain only as long as something is selected. -/
  busy : ∀ chain, session.active = some chain → ∃ side node, session.slot side = some node

namespace Tidy

/-- New nodes do not concern a session. -/
theorem extend (tidy : session.Tidy nextId) {later : Document} {laterId : ChainId}
    (intact : later.Intact laterId) (grown : session.document.Extends later) :
    ({ session with document := later } : Session).Tidy laterId where
  intact := intact
  held side node held := by
    rw [slot_document] at held
    rcases tidy.held side node held with ⟨active, found, known, stands⟩
    exact ⟨active, found, grown.kept node found known, stands⟩
  chosen node found known := by
    rw [slot_document]
    rcases grown.unchosen node found known with old | unchosen
    · exact tidy.chosen node found old
    · constructor
      · intro chose
        rw [unchosen] at chose
        cases chose
      · intro held
        rcases (tidy.held _ _ held).2 with ⟨before, was, -⟩
        exact (tidy.chosen node found (grown.node?_eq_some was known)).2 held
  sided node found choice known chose := by
    rcases grown.unchosen node found known with old | unchosen
    · exact tidy.sided node found choice old chose
    · rw [unchosen] at chose
      cases chose
  paired side other node node' found found' different held held' known known' := by
    rw [slot_document] at held held'
    rcases (tidy.held side node held).2 with ⟨before, was, -⟩
    rcases (tidy.held other node' held').2 with ⟨before', was', -⟩
    exact tidy.paired side other node node' found found' different held held'
      (grown.node?_eq_some was known) (grown.node?_eq_some was' known')
  unasked side node found held known root := by
    rw [slot_document] at held
    rcases (tidy.held side node held).2 with ⟨before, was, -⟩
    exact tidy.unasked side node found held (grown.node?_eq_some was known) root

/-- What is selected on another side than the node is another node. -/
theorem ne_of_slot (tidy : session.Tidy nextId) (known : session.document.node? node = some found)
    {side : Side} {other : NodeId} (different : side ≠ found.side)
    (held : session.slot side = some other) : other ≠ node := by
  rintro rfl
  rcases (tidy.held side other held).2 with ⟨before, was, stands⟩
  rw [known] at was
  cases was
  exact different stands.symm

/-- A session stays tidy when the choice at a node and the slot on its side change together, unless
another node is in the slot.  What is put into the slot must fit what is selected already. -/
theorem mark (tidy : session.Tidy nextId) (known : session.document.node? node = some found)
    (free : ∀ other, session.slot found.side = some other → other = node)
    (choice : Option Choice) (sided : ∀ made, choice = some made → made.side = found.side)
    (fits : choice.isSome → session.active = some node.chain ∧ session.chooser = none ∧
      ∀ side other found', side ≠ found.side → session.slot side = some other →
        session.document.node? other = some found' →
        found'.parent = found.parent ∧ found'.root = found.root)
    {later : Document} (intact : later.Intact nextId)
    (changed : ∀ other, later.node? other =
      if other = node then some { found with choice } else session.document.node? other) :
    ({ session.setSlot found.side (choice.map fun _ => node) with document := later } :
      Session).Tidy nextId := by
  have marked : ∀ other before, (choice.map fun _ => node) = some other →
      later.node? other = some before →
      choice.isSome ∧ before.parent = found.parent ∧ before.root = found.root := by
    intro other before held was
    rcases Option.map_eq_some_iff.1 held with ⟨made, rfl, rfl⟩
    rw [changed, if_pos rfl] at was
    cases was
    exact ⟨rfl, rfl, rfl⟩
  have elsewhere : ∀ side other, side ≠ found.side → session.slot side = some other →
      later.node? other = session.document.node? other := fun side other different held => by
    rw [changed, if_neg (tidy.ne_of_slot known different held)]
  have beside : ∀ side left right before before', side ≠ found.side →
      (choice.map fun _ => node) = some left → session.slot side = some right →
      later.node? left = some before → later.node? right = some before' →
      before.parent = before'.parent ∧ before.root = before'.root := by
    intro side left right before before' there here held was was'
    rcases marked left before here was with ⟨chose, parent, root⟩
    rw [elsewhere side right there held] at was'
    rcases (fits chose).2.2 side right before' there held was' with ⟨parent', root'⟩
    exact ⟨parent.trans parent'.symm, root.trans root'.symm⟩
  constructor
  case intact => exact intact
  case held =>
    intro side other held
    rw [slot_document] at held
    by_cases here : side = found.side
    · subst here
      rw [slot_setSlot] at held
      rcases Option.map_eq_some_iff.1 held with ⟨made, rfl, rfl⟩
      exact ⟨(active_setSlot ..).trans (fits rfl).1, _, (changed node).trans (if_pos rfl), rfl⟩
    · rw [slot_setSlot_of_ne here] at held
      rcases tidy.held side other held with ⟨active, before, was, stands⟩
      exact ⟨(active_setSlot ..).trans active, before, (elsewhere side other here held).trans was,
        stands⟩
  case chosen =>
    intro other before was
    rw [slot_document]
    rw [changed] at was
    split at was
    · rename_i same
      cases was
      rw [same, slot_setSlot]
      cases choice with
      | none => exact ⟨fun chose => (Bool.false_ne_true chose).elim, fun held => nomatch held⟩
      | some made => exact ⟨fun _ => rfl, fun _ => rfl⟩
    · rename_i different
      rw [tidy.chosen other before was]
      by_cases here : before.side = found.side
      · rw [here, slot_setSlot]
        constructor
        · intro held
          exact absurd (free other held) different
        · intro held
          rcases Option.map_eq_some_iff.1 held with ⟨-, -, rfl⟩
          exact absurd rfl different
      · rw [slot_setSlot_of_ne here]
  case sided =>
    intro other before made was chose
    rw [changed] at was
    split at was
    · cases was
      exact sided made chose
    · exact tidy.sided other before made was chose
  case paired =>
    intro side other left right before before' different held held' was was'
    rw [slot_document] at held held'
    -- one of the sides is that of the node, the other one is not
    by_cases here : side = found.side
    · have there : other ≠ found.side := fun same => different (here.trans same.symm)
      rw [here, slot_setSlot] at held
      rw [slot_setSlot_of_ne there] at held'
      exact beside other left right before before' there held held' was was'
    · have there : other = found.side := Side.eq_of_ne different here
      rw [there, slot_setSlot] at held'
      rw [slot_setSlot_of_ne here] at held
      rcases beside side right left before' before here held' held was' was with ⟨parent, root⟩
      exact ⟨parent.symm, root.symm⟩
  case unasked =>
    intro side other before held was root
    rw [slot_document] at held
    by_cases here : side = found.side
    · rw [here, slot_setSlot] at held
      exact (chooser_setSlot ..).trans (fits (marked other before held was).1).2.1
    · rw [slot_setSlot_of_ne here] at held
      rw [elsewhere side other here held] at was
      exact (chooser_setSlot ..).trans (tidy.unasked side other before held was root)

/-! ## Emptying slots -/

/-- Emptying a slot takes back the choice at what was in it, and changes nothing else. -/
theorem exists_clear (tidy : session.Tidy nextId) (side : Side) :
    ∃ later, session.clear side = .ok
        ({ session.setSlot side none with document := later },
          (session.slot side).toList.map .node) ∧
      ({ session.setSlot side none with document := later } : Session).Tidy nextId ∧
      ∀ node, later.node? node =
        if session.slot side = some node then (session.document.node? node).map Node.bare
        else session.document.node? node := by
  rw [clear]
  cases held : session.slot side with
  | none =>
      have same : ({ session.setSlot side none with document := session.document } : Session) =
          session := by
        cases side <;> cases session <;> cases held <;> rfl
      refine ⟨session.document, ?_, ?_, fun node => ?_⟩
      · rw [same]
        rfl
      · rw [same]
        exact tidy
      · rw [if_neg (fun held => nomatch held)]
  | some node =>
      rcases (tidy.held side node held).2 with ⟨found, known, rfl⟩
      rcases tidy.intact.exists_annotate known none with ⟨later, annotated, intact, changed⟩
      refine ⟨later, ?_, ?_, fun other => ?_⟩
      · simp only [annotated]
        rfl
      · exact tidy.mark known (fun other held' => Option.some.inj (held'.symm.trans held)) none
          (fun made none => nomatch none) (fun none => nomatch none) intact changed
      · rw [changed]
        by_cases same : other = node
        · rw [if_pos same, same, if_pos rfl, known]
          rfl
        · rw [if_neg same, if_neg fun held => same (Option.some.inj held).symm]

/-- Nothing is chosen if nothing is selected. -/
theorem choice_eq_none (tidy : session.Tidy nextId) (empty : ∀ side, session.slot side = none)
    (known : session.document.node? node = some found) : found.choice = none := by
  have chosen := tidy.chosen node found known
  rw [empty] at chosen
  exact Option.not_isSome_iff_eq_none.1 fun chose => nomatch chosen.1 chose

/-- Emptying both slots takes back all choices. -/
theorem exists_clearBoth (tidy : session.Tidy nextId) :
    ∃ later, session.clearBoth = .ok
        ({ session with document := later, left := none, right := none },
          (session.right.toList ++ session.left.toList).map .node) ∧
      ({ session with document := later, left := none, right := none } : Session).Tidy nextId ∧
      ∀ node, later.node? node = (session.document.node? node).map Node.bare := by
  rcases tidy.exists_clear .right with ⟨middle, clearRight, tidyMiddle, changedRight⟩
  rcases tidyMiddle.exists_clear .left with ⟨later, clearLeft, tidyLater, changedLeft⟩
  refine ⟨later, ?_, tidyLater, fun node => ?_⟩
  · simp only [clearBoth, clearRight, bind, Except.bind, clearLeft]
    rw [List.map_append]
    rfl
  · have shape : (later.node? node).map Node.bare =
        (session.document.node? node).map Node.bare := by
      rw [changedLeft]
      simp only [changedRight]
      split <;> split <;> simp only [Option.map_map] <;> rfl
    rw [← shape]
    cases known : later.node? node with
    | none => rfl
    | some found =>
        have unchosen := tidyLater.choice_eq_none (fun side => by cases side <;> rfl) known
        rw [Option.map_some, Node.bare_eq_self.2 unchosen]

/-! ## Filling slots -/

/-- A node is put into an empty slot if it fits what is selected already. -/
theorem exists_place (tidy : session.Tidy nextId) (known : session.document.node? node = some found)
    (free : session.slot found.side = none) (active : session.active = some node.chain)
    (unasked : session.chooser = none)
    (fits : ∀ side other found', side ≠ found.side → session.slot side = some other →
      session.document.node? other = some found' →
      found'.parent = found.parent ∧ found'.root = found.root) (link : Link) :
    ∃ later, session.place node link = .ok {
        answer := true
        session := { session.setSlot found.side (some node) with document := later }
        changes := [.node node] } ∧
      ({ session.setSlot found.side (some node) with document := later } :
        Session).Tidy nextId := by
  rcases Document.exists_owner known with ⟨chain, listed, -, -, asked, -⟩
  rcases tidy.intact.exists_annotate known (some ⟨found.side, link⟩) with
    ⟨later, annotated, intact, changed⟩
  refine ⟨later, ?_, ?_⟩
  · simp only [place, listed, asked, bind, Except.bind, annotated]
    rfl
  · refine tidy.mark known (fun other held => nomatch free.symm.trans held)
      (some ⟨found.side, link⟩) ?_ (fun _ => ⟨active, unasked, fits⟩) intact changed
    intro made same
    cases same
    rfl

/-! ## Which nodes are admitted -/

end Tidy

/-- What an admission says of the node and of what is selected. -/
inductive Admits (session : Session) (node : NodeId) : Admission → Prop where
  | refused : session.Admits node .refused
  /-- Nothing is selected. -/
  | alone {found : Node} (known : session.document.node? node = some found)
      (empty : ∀ side, session.slot side = none) : session.Admits node .admitted
  /-- Only another operand of the same operation is selected, or only another root of the step. -/
  | beside {found before : Node} {selected : NodeId} {side : Side}
      (known : session.document.node? node = some found)
      (held : session.slot side = some selected)
      (alone : ∀ other, other ≠ side → session.slot other = none)
      (was : session.document.node? selected = some before) (different : selected ≠ node)
      (chain : selected.chain = node.chain) (root : before.root = found.root)
      (parent : before.parent = found.parent) : session.Admits node .admitted
  /-- The node is the operation whose operand is selected. -/
  | above {found before : Node} {selected : NodeId} {side : Side}
      (known : session.document.node? node = some found)
      (held : session.slot side = some selected)
      (was : session.document.node? selected = some before)
      (chain : selected.chain = node.chain) (root : before.root = found.root)
      (parent : before.parent = some node.index) : session.Admits node .replacing

namespace Tidy

/-- Deciding about a node never fails. -/
theorem exists_admits (tidy : session.Tidy nextId) (node : NodeId) :
    ∃ admission, session.admission node = .ok admission ∧ session.Admits node admission := by
  rw [admission]
  cases owner : session.document.owner? node with
  | none => exact ⟨.refused, rfl, .refused⟩
  | some chain =>
      rcases Document.exists_known owner with ⟨found, known⟩
      rcases Document.exists_owner known with ⟨chain', listed, owner', -, asked, -⟩
      cases Option.some.inj (owner.symm.trans owner')
      cases chosen : session.selected with
      | none => exact ⟨.admitted, rfl, .alone known (slot_eq_none_of_selected chosen)⟩
      | some selected =>
          rcases exists_slot_of_selected chosen with ⟨side, held, alone⟩
          by_cases apart : selected = node ∨ selected.chain ≠ node.chain
          · exact ⟨.refused, if_pos apart, .refused⟩
          · rcases not_or.1 apart with ⟨different, sameChain⟩
            have sameChain := Decidable.not_not.1 sameChain
            rcases (tidy.held side selected held).2 with ⟨before, was, -⟩
            rcases Document.exists_owner was with ⟨chain', listed', -, -, asked', -⟩
            rw [sameChain, listed] at listed'
            cases listed'
            simp only [if_neg apart, asked, asked', bind, Except.bind]
            by_cases root : before.root = found.root
            · rw [if_neg (not_not_intro root)]
              by_cases above : before.parent = some node.index
              · rw [if_pos above]
                exact ⟨.replacing, rfl, .above known held was sameChain root above⟩
              · rw [if_neg above]
                by_cases full : session.left.isSome ∧ session.right.isSome
                · exact ⟨.refused, if_pos full, .refused⟩
                · rw [if_neg full]
                  by_cases parent : before.parent = found.parent
                  · exact ⟨.admitted, if_pos parent,
                      .beside known held (alone full) was different sameChain root parent⟩
                  · exact ⟨.refused, if_neg parent, .refused⟩
            · exact ⟨.refused, if_pos root, .refused⟩

/-- A node that is admitted beside another stands on the other side. -/
theorem side_ne_of_beside (tidy : session.Tidy nextId) {before : Node} {selected : NodeId}
    {side : Side} (known : session.document.node? node = some found)
    (held : session.slot side = some selected)
    (was : session.document.node? selected = some before) (different : selected ≠ node)
    (chain : selected.chain = node.chain) (root : before.root = found.root)
    (parent : before.parent = found.parent) : side ≠ found.side := by
  rintro rfl
  rcases (tidy.held _ selected held).2 with ⟨before', was', stands⟩
  rw [was] at was'
  cases was'
  refine different (tidy.intact.eq_of_place was known chain ?_)
  rw [Node.place, Node.place, root, parent, stands]

/-- The root of a step is selected on the left and alone. -/
theorem alone_of_root (tidy : session.Tidy nextId) {side : Side}
    (held : session.slot side = some node) (known : session.document.node? node = some found)
    (root : found.parent = none) :
    side = .left ∧ ∀ other, other ≠ side → session.slot other = none := by
  have left : ∀ side node found, session.slot side = some node →
      session.document.node? node = some found → found.parent = none → side = .left := by
    intro side node found held known root
    rcases (tidy.held side node held).2 with ⟨found', known', rfl⟩
    cases Option.some.inj (known.symm.trans known')
    exact tidy.intact.side_of_isRoot known root
  refine ⟨left side node found held known root, fun other different => ?_⟩
  cases held' : session.slot other with
  | none => rfl
  | some node' =>
      rcases (tidy.held other node' held').2 with ⟨found', known', -⟩
      have parent := (tidy.paired side other node node' found found' different.symm held held'
        known known').1
      have same := left other node' found' held' known' (parent.symm.trans root)
      exact absurd (same.trans (left side node found held known root).symm) different

/-- Nothing is admitted beside the root of a step. -/
theorem admission_eq_refused (tidy : session.Tidy nextId) {side : Side} {selected : NodeId}
    {before : Node} (held : session.slot side = some selected)
    (was : session.document.node? selected = some before) (root : before.parent = none)
    (node : NodeId) : session.admission node = .ok .refused := by
  rcases tidy.alone_of_root held was root with ⟨onLeft, alone⟩
  have only : ∀ side' selected' before', session.slot side' = some selected' →
      session.document.node? selected' = some before' → before'.parent = none := by
    intro side' selected' before' held' was'
    by_cases same : side' = side
    · subst same
      cases Option.some.inj (held.symm.trans held')
      cases Option.some.inj (was.symm.trans was')
      exact root
    · rw [alone side' same] at held'
      cases held'
  rcases tidy.exists_admits node with ⟨admission, decided, admits⟩
  rw [decided]
  cases admits with
  | refused => rfl
  | alone known empty =>
      rw [empty side] at held
      cases held
  | beside known held' alone' was' different chain sameRoot parent =>
      have none := only _ _ _ held' was'
      have away := tidy.side_ne_of_beside known held' was' different chain sameRoot parent
      have stands := tidy.intact.side_of_isRoot known (parent.symm.trans none)
      have stands' := (tidy.alone_of_root held' was' none).1
      exact absurd (stands'.trans stands.symm) away
  | above known held' was' chain sameRoot parent =>
      rw [only _ _ _ held' was'] at parent
      cases parent

end Tidy

namespace Settled

theorem extend (settled : session.Settled nextId) {later : Document} {laterId : ChainId}
    (intact : later.Intact laterId) (grown : session.document.Extends later) :
    ({ session with document := later } : Session).Settled laterId where
  toTidy := settled.toTidy.extend intact grown
  busy chain active := by
    rcases settled.busy chain active with ⟨side, node, held⟩
    exact ⟨side, node, (slot_document ..).trans held⟩

theorem mono (settled : session.Settled nextId) {laterId : ChainId} (le : nextId ≤ laterId) :
    session.Settled laterId :=
  settled.extend (settled.intact.mono le) (.refl session.document)

end Settled

end Session

end Calculation
