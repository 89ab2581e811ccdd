import Calculation.Proofs.Selection

/-!
Every operation of a session succeeds, leaves the session settled, and is no step at all if it is
refused.

* `Session.Settled.exists_request`, `Session.Settled.exists_choose`,
  `Session.Settled.exists_escape`, `Session.Settled.exists_commit`.

Choosing is the one operation that fills a slot.  In each of the three ways in which a node can be
admitted the slot of its side is empty: nothing is selected, or only a node on the other side is, or
the slots are emptied first because the node is the operation above them.
-/

namespace Calculation

/-- What the choice at the node with an index says, if there is one. -/
def Chain.said? (chain : Chain) (index : Nat) : Option Relation :=
  (chain.nodes[index]?).bind fun node =>
    node.choice.map fun choice => choice.link.relationFrom node.expr

/-- A result is made of a result of the first part. -/
theorem exists_of_bind_eq_ok {ε α β : Type} {first : Except ε α} {rest : α → Except ε β}
    {result : β} (done : first >>= rest = .ok result) :
    ∃ between, first = .ok between ∧ rest between = .ok result := by
  cases first with
  | error fault => cases done
  | ok between => exact ⟨between, rfl, done⟩

/-- Asking of every element of a list what is answered of each. -/
theorem mapM_eq_ok {ε α β : Type} {ask : α → Except ε β} {answer : α → β} {list : List α}
    (answered : ∀ x ∈ list, ask x = .ok (answer x)) : list.mapM ask = .ok (list.map answer) := by
  induction list with
  | nil => rfl
  | cons x rest ih =>
      have later := ih fun y mem => answered y (List.mem_cons_of_mem _ mem)
      rw [List.mapM_cons, answered x List.mem_cons_self, later]
      rfl

namespace Session

variable {nextId : ChainId} {session : Session} {node : NodeId} {found : Node}

/-! ## The list of suggestions -/

/-- Showing or closing a list does not concern the slots, unless the root of a step is selected. -/
theorem Tidy.withChooser (tidy : session.Tidy nextId) (chooser : Option Ticket)
    (quiet : ∀ side node found, session.slot side = some node →
      session.document.node? node = some found → found.parent = none → chooser = none) :
    ({ session with chooser := chooser } : Session).Tidy nextId where
  intact := tidy.intact
  held side node held := tidy.held side node (by rwa [slot_chooser] at held)
  chosen node found known := by
    rw [slot_chooser]
    exact tidy.chosen node found known
  sided := tidy.sided
  paired side other node node' found found' different held held' := by
    rw [slot_chooser] at held held'
    exact tidy.paired side other node node' found found' different held held'
  unasked side node found held := by
    rw [slot_chooser] at held
    exact quiet side node found held

theorem Settled.withChooser (settled : session.Settled nextId) (chooser : Option Ticket)
    (quiet : ∀ side node found, session.slot side = some node →
      session.document.node? node = some found → found.parent = none → chooser = none) :
    ({ session with chooser := chooser } : Session).Settled nextId where
  toTidy := settled.toTidy.withChooser chooser quiet
  busy chain active := by
    rcases settled.busy chain active with ⟨side, node, held⟩
    exact ⟨side, node, by rwa [slot_chooser]⟩

/-- The suggestions for a node come from the rules of its chain, resolved with what the choices at
its operands say. -/
theorem Tidy.effectiveTheory_eq (tidy : session.Tidy nextId) {chain : Chain}
    (known : session.document.node? node = some found)
    (listed : session.document.find? node.chain = some chain) :
    session.effectiveTheory node =
      .ok (some ((found.operands.filterMap chain.said?).foldl Theory.resolve chain.theory)) := by
  rcases Document.exists_owner known with ⟨chain', listed', owner, -, asked, held⟩
  cases Option.some.inj (listed.symm.trans listed')
  have intact := tidy.intact.chains chain (Document.mem_of_find? listed).1
  have answered : ∀ index ∈ found.operands, fact? chain index = .ok (chain.said? index) := by
    intro index below
    have inside := intact.lt_of_mem_operands (List.mem_of_getElem? held) below
    have operand : chain.node (chain.idOf index) = .ok chain.nodes[index] := by
      rw [Chain.node, Chain.node?_of_id rfl, Chain.idOf, List.getElem?_eq_getElem inside]
    rw [fact?, operand, Chain.said?, List.getElem?_eq_getElem inside]
    rfl
  simp only [effectiveTheory, owner, asked, bind, Except.bind, mapM_eq_ok answered]
  rw [List.filterMap_map]
  rfl

/-- The operands of a node can be asked what was chosen for them. -/
theorem Tidy.exists_effectiveTheory (tidy : session.Tidy nextId) (node : NodeId) :
    ∃ theory, session.effectiveTheory node = .ok theory := by
  cases owner : session.document.owner? node with
  | none =>
      refine ⟨none, ?_⟩
      rw [effectiveTheory, owner]
      rfl
  | some chain =>
      rcases Document.exists_known owner with ⟨found, known⟩
      rcases Document.exists_owner known with ⟨chain', listed, -⟩
      exact ⟨_, tidy.effectiveTheory_eq known listed⟩

/-- A request is answered, and changes nothing if it is refused. -/
theorem Settled.exists_request (settled : session.Settled nextId) (node : NodeId)
    (ticket : Ticket) :
    ∃ step, session.request node ticket = .ok step ∧ step.session.Settled nextId ∧
      (step.answer = none → step = session.stay none) := by
  rcases settled.exists_admits node with ⟨admission, decided, -⟩
  by_cases refused : admission = .refused
  · refine ⟨session.stay none, ?_, settled, fun _ => rfl⟩
    simp only [request, decided, bind, Except.bind, if_pos refused]
    rfl
  · rcases settled.exists_effectiveTheory node with ⟨theory, effective⟩
    simp only [request, decided, bind, Except.bind, if_neg refused, effective]
    cases theory with
    | none => exact ⟨_, rfl, settled, fun _ => rfl⟩
    | some theory =>
        cases known : session.document.node? node with
        | none => exact ⟨_, rfl, settled, fun _ => rfl⟩
        | some found =>
            refine ⟨_, rfl, settled.withChooser (some ticket) ?_, fun none => nomatch none⟩
            intro side selected before held was root
            rw [settled.admission_eq_refused held was root] at decided
            exact absurd (Except.ok.inj decided).symm refused

/-! ## Choosing -/

/-- Any chain can be worked on if nothing is selected. -/
theorem Tidy.withActive (tidy : session.Tidy nextId) (empty : ∀ side, session.slot side = none)
    (active : Option ChainId) : ({ session with active } : Session).Tidy nextId where
  intact := tidy.intact
  held side node held := by
    rw [slot_active, empty] at held
    cases held
  chosen node found known := by
    rw [slot_active]
    exact tidy.chosen node found known
  sided := tidy.sided
  paired side other node node' found found' different held := by
    rw [slot_active, empty] at held
    cases held
  unasked side node found held := by
    rw [slot_active, empty] at held
    cases held

/-- A session is settled when a node has been put into a slot. -/
theorem Tidy.settled_of_place {side : Side} {later : Document}
    (tidy : ({ session.setSlot side (some node) with document := later } : Session).Tidy nextId) :
    ({ session.setSlot side (some node) with document := later } : Session).Settled nextId where
  toTidy := tidy
  busy chain active := ⟨side, node, by rw [slot_document, slot_setSlot]⟩

theorem activate_of_active (active : session.active = some node.chain) :
    session.activate node = .ok session := by
  rw [activate, active]
  exact if_pos rfl

/-- Choosing succeeds once the session is ready for the node: it works on its chain, and the slot
of its side is empty. -/
theorem exists_choose_of_ready {active ready : Session} {admission : Admission}
    {cleared : List Change} (decided : session.admission node = .ok admission)
    (admitted : admission ≠ .refused) (activated : session.activate node = .ok active)
    (emptied : (if admission = .replacing then active.clearBoth else .ok (active, [])) =
      .ok (ready, cleared))
    (tidy : ready.Tidy nextId) (known : ready.document.node? node = some found)
    (free : ready.slot found.side = none) (working : ready.active = some node.chain)
    (fits : ∀ side other found', side ≠ found.side → ready.slot side = some other →
      ready.document.node? other = some found' →
      found'.parent = found.parent ∧ found'.root = found.root) (link : Link) :
    ∃ step, session.choose node link = .ok step ∧ step.session.Settled nextId ∧
      step.answer = true ∧ step.session.chooser = none := by
  have closed := tidy.withChooser none fun _ _ _ _ _ _ => rfl
  rcases closed.exists_place known ((slot_chooser ..).trans free) working rfl
    (fun side other found' away held => fits side other found' away
      ((slot_chooser ..).symm.trans held)) link with ⟨later, placed, tidyLater⟩
  refine ⟨{
    answer := true
    session := { ({ ready with chooser := none } : Session).setSlot found.side (some node) with
      document := later }
    changes := cleared ++ [.node node] }, ?_, tidyLater.settled_of_place, rfl, chooser_setSlot ..⟩
  simp only [choose, decided, bind, Except.bind, if_neg admitted, activated]
  by_cases replacing : admission = .replacing
  · rw [if_pos replacing] at emptied ⊢
    simp only [emptied, placed]
    rfl
  · rw [if_neg replacing] at emptied ⊢
    cases emptied
    simp only [pure, Except.pure, placed]

/-- Choosing for a node that is admitted succeeds, and closes the list of suggestions. -/
theorem Settled.exists_choose_of_admits (settled : session.Settled nextId) {admission : Admission}
    (decided : session.admission node = .ok admission) (admits : session.Admits node admission)
    (admitted : admission ≠ .refused) (link : Link) :
    ∃ step, session.choose node link = .ok step ∧ step.session.Settled nextId ∧
      step.answer = true ∧ step.session.chooser = none := by
  cases admits with
  | refused => exact absurd rfl admitted
  | alone known empty =>
      have idle : session.active = none := by
        cases active : session.active with
        | none => rfl
        | some chain =>
            rcases settled.busy chain active with ⟨side, other, held⟩
            rw [empty] at held
            cases held
      have activated : session.activate node = .ok { session with active := some node.chain } := by
        rw [activate, idle]
      refine exists_choose_of_ready decided admitted activated
        (if_neg fun same => nomatch same) (settled.toTidy.withActive empty (some node.chain)) known
        ((slot_active ..).trans (empty _)) rfl (fun side other found' _ held => ?_) link
      rw [slot_active, empty] at held
      cases held
  | beside known held alone was different chain root parent =>
      have away := settled.side_ne_of_beside known held was different chain root parent
      have active := chain ▸ (settled.held _ _ held).1
      refine exists_choose_of_ready decided admitted
        (activate_of_active active) (if_neg fun same => nomatch same) settled.toTidy known
        (alone _ away.symm) active (fun side' other found' away' held' was' => ?_) link
      -- only the node that was selected is beside the node
      cases Side.eq_of_ne away'.symm away.symm
      cases Option.some.inj (held.symm.trans held')
      cases Option.some.inj (was.symm.trans was')
      exact ⟨parent, root⟩
  | @above found before selected side known held was chain root parent =>
      have active := chain ▸ (settled.held _ _ held).1
      rcases settled.exists_clearBoth with ⟨later, emptied, tidy, shape⟩
      have known' := (shape node).trans (congrArg (Option.map Node.bare) known)
      refine exists_choose_of_ready decided admitted
        (activate_of_active active) emptied tidy known' ?_ active
        (fun side other found' _ held' => ?_) link
      · cases found.bare.side <;> rfl
      · cases side <;> cases held'

/-- Choosing succeeds, and changes nothing if it is refused. -/
theorem Settled.exists_choose (settled : session.Settled nextId) (node : NodeId) (link : Link) :
    ∃ step, session.choose node link = .ok step ∧ step.session.Settled nextId ∧
      (step.answer = false → step = session.stay false) := by
  rcases settled.exists_admits node with ⟨admission, decided, admits⟩
  by_cases refused : admission = .refused
  · refine ⟨session.stay false, ?_, settled, fun _ => rfl⟩
    simp only [choose, decided, bind, Except.bind, if_pos refused]
    rfl
  · rcases settled.exists_choose_of_admits decided admits refused link with
      ⟨step, done, after, answer, -⟩
    exact ⟨step, done, after, fun refused => nomatch answer.symm.trans refused⟩

/-! ## Going back -/

/-- Letting go of the chain when nothing is selected is all that is left to do. -/
theorem Tidy.settled_release (tidy : session.Tidy nextId) :
    session.release.1.Settled nextId := by
  cases onLeft : session.left with
  | some node =>
      have same : session.release = (session, []) := by rw [release, onLeft]
      rw [same]
      exact ⟨tidy, fun chain active => ⟨.left, node, onLeft⟩⟩
  | none =>
      cases onRight : session.right with
      | some node =>
          have same : session.release = (session, []) := by rw [release, onLeft, onRight]
          rw [same]
          exact ⟨tidy, fun chain active => ⟨.right, node, onRight⟩⟩
      | none =>
          have empty : ∀ side, session.slot side = none := fun side => by
            cases side with
            | left => exact onLeft
            | right => exact onRight
          cases active : session.active with
          | none =>
              have same : session.release = (session, []) := by
                rw [release, onLeft, onRight, active]
              rw [same]
              exact ⟨tidy, fun chain working => nomatch active.symm.trans working⟩
          | some chain =>
              have released : session.release.1 = { session with active := none } := by
                rw [release, onLeft, onRight, active]
              rw [released]
              exact ⟨tidy.withActive empty none, fun chain working => nomatch working⟩

/-- Going back succeeds, and changes nothing if there is nothing to go back to. -/
theorem Settled.exists_escape (settled : session.Settled nextId) :
    ∃ step, session.escape = .ok step ∧ step.session.Settled nextId ∧
      (step.answer = false → step = session.stay false) := by
  rw [escape]
  cases session.chooser with
  | some ticket =>
      have closed := settled.withChooser none fun _ _ _ _ _ _ => rfl
      exact ⟨_, rfl, closed, fun refused => nomatch refused⟩
  | none =>
      cases session.nextToClear? with
      | none => exact ⟨_, rfl, settled, fun _ => rfl⟩
      | some side =>
          rcases settled.exists_clear side with ⟨later, cleared, tidy, -⟩
          simp only [cleared, bind, Except.bind]
          exact ⟨_, rfl, tidy.settled_release, fun refused => nomatch refused⟩

/-! ## Committing -/

/-- What can be committed is a link chosen for a node of the chain. -/
theorem Tidy.exists_committable? (tidy : session.Tidy nextId) :
    ∃ answer, session.committable? = .ok answer ∧
      ∀ chain link, answer = some (chain, link) →
        session.document.find? chain.id = some chain := by
  rw [committable?]
  cases onLeft : session.left with
  | none => exact ⟨none, rfl, fun _ _ none => nomatch none⟩
  | some node =>
      cases onRight : session.right with
      | some other => exact ⟨none, rfl, fun _ _ none => nomatch none⟩
      | none =>
          rcases (tidy.held .left node onLeft).2 with ⟨found, known, -⟩
          rcases Document.exists_owner known with ⟨chain, listed, -, -, asked, -⟩
          simp only [listed, asked, bind, Except.bind]
          refine ⟨_, rfl, fun chain' link some => ?_⟩
          split at some
          · rcases Option.map_eq_some_iff.1 some with ⟨choice, -, same⟩
            cases same
            rw [(Document.mem_of_find? listed).2]
            exact listed
          · cases some

/-- What can be committed is the choice at the root of a step. -/
theorem exists_of_committable? {chain : Chain} {link : Link}
    (asked : session.committable? = .ok (some (chain, link))) : ∃ node found choice,
      session.left = some node ∧ session.document.find? node.chain = some chain ∧
      chain.nodes[node.index]? = some found ∧ found.parent = none ∧
      found.choice = some choice ∧ choice.link = link := by
  rw [committable?] at asked
  split at asked
  · rename_i node onLeft onRight
    cases listed : session.document.find? node.chain with
    | none =>
        simp only [listed] at asked
        cases asked
    | some chain' =>
        simp only [listed] at asked
        rcases exists_of_bind_eq_ok asked with ⟨found, known, rest⟩
        split at rest
        · rename_i root
          rcases Option.map_eq_some_iff.1 (Except.ok.inj rest) with ⟨choice, chose, same⟩
          cases same
          have here := Chain.getElem?_of_node (Document.mem_of_find? listed).2 known
          exact ⟨node, found, choice, onLeft, listed, here, Option.isNone_iff_eq_none.1 root, chose,
            rfl⟩
        · cases rest
  · cases asked

/-- Committing succeeds, and changes nothing if it is refused. -/
theorem Settled.exists_commit (settled : session.Settled nextId) :
    ∃ step, session.commit = .ok step ∧ step.session.Settled nextId ∧
      (step.answer = false → step = session.stay false) := by
  rcases settled.exists_committable? with ⟨answer, asked, listed⟩
  rw [commit, asked]
  cases answer with
  | none => exact ⟨_, rfl, settled, fun _ => rfl⟩
  | some answer =>
      rcases answer with ⟨chain, link⟩
      have found := listed chain link rfl
      have intact := settled.intact.chains chain (Document.mem_of_find? found).1
      have grown := settled.extend (settled.intact.insert (intact.append link))
        (.of_insert_append found link)
      rcases grown.exists_clearBoth with ⟨later, emptied, tidy, -⟩
      simp only [bind, Except.bind, emptied]
      exact ⟨_, rfl, tidy.settled_release, fun refused => nomatch refused⟩

end Session

end Calculation
