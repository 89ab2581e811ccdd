import Calculation.Proofs.Admission
import Calculation.Proofs.Identity

/-!
Going back.

Choosing fills one slot (`Session.Fills`) and going back empties one (`Session.Empties`), and
nothing else comes of them: a session is known by its slots, its outline and its choices.  Which
slot is emptied is a matter of its side and not of time, so going back takes back what was chosen
last unless that was on the left, beside a node on the right.

* `Session.Settled.exists_fills`, `Session.Settled.exists_empties`: the exact effects.
* `Workspace.exists_run_undoes`: when going back takes back what was chosen last.
* `Workspace.exists_run_idle`: going back as often as it is possible ends with nothing selected.
-/

namespace Calculation

/-- What holds on a side and on the other one holds on both. -/
theorem Side.both {holds : Side → Prop} (side : Side) (here : holds side)
    (there : holds side.other) (beside : Side) : holds beside := by
  by_cases same : beside = side
  · rwa [same]
  · rwa [eq_other_of_ne same]

namespace Session

variable {nextId : ChainId} {session before after last : Session} {node : NodeId} {found : Node}
  {side : Side} {link : Link}

/-! ## What a choice does -/

/-- The node is put into the slot of the side with the link, and what it takes to work on its chain
is done.  All else is as before. -/
structure Fills (before : Session) (node : NodeId) (side : Side) (link : Link) (after : Session) :
    Prop where
  slot : after.slot side = some node
  other : after.slot side.other = before.slot side.other
  active : after.active = some node.chain
  chooser : after.chooser = none
  outline : after.document.outline = before.document.outline
  choices : ∀ other, after.document.choice? other =
    if other = node then some ⟨side, link⟩ else before.document.choice? other

/-- A choice for a node that is admitted fills the slot of its side. -/
theorem Settled.exists_fills (settled : session.Settled nextId)
    (decided : session.admission node = .ok .admitted)
    (known : session.document.node? node = some found) (link : Link) :
    ∃ after, session.choose node link =
        .ok { answer := true, session := after, changes := [.node node] } ∧
      after.Settled nextId ∧ session.Fills node found.side link after := by
  obtain ⟨admission, decided', admits⟩ := settled.exists_admits node
  cases decided.symm.trans decided'
  obtain ⟨step, done, after, answer, hidden⟩ :=
    settled.exists_choose_of_admits decided admits (fun same => nomatch same) link
  have slots := slot_of_choose decided known done answer
  have outline := outline_of_choose done
  rcases of_choose done with rfl | ⟨admission, active, ready, cleared, placed, decided', -,
    activated, prepared, inserted, rfl⟩
  · cases answer
  cases decided.symm.trans decided'
  rcases prepared with ⟨replacing, -⟩ | ⟨-, rfl, rfl⟩
  · cases replacing
  have document := document_of_activate activated
  rcases of_place inserted with rfl | ⟨chain, found', later, listed, asked, annotated, rfl⟩
  · cases answer
  have here : session.document.node? node = some found' := by
    rw [Document.node?_eq, ← document, listed]
    exact Chain.getElem?_of_node (Document.mem_of_find? listed).2 asked
  cases Option.some.inj (known.symm.trans here)
  have working : ready.active = some node.chain := by
    rcases of_activate activated with ⟨-, rfl⟩ | ⟨working, rfl⟩
    · rfl
    · exact working
  refine ⟨_, done, after, ?_⟩
  constructor
  case slot => exact slots.1
  case other => exact slots.2
  case active => exact (active_setSlot ..).trans working
  case chooser => exact hidden
  case outline => exact outline
  case choices =>
    rw [← document] at known ⊢
    exact (settled.toTidy.of_activate activated).intact.choice?_of_annotate known annotated

/-! ## What going back does -/

/-- The slot of the side is emptied with the choice at its node, and what it takes to let go of the
chain is done.  All else is as before. -/
structure Empties (before : Session) (side : Side) (after : Session) : Prop where
  slot : after.slot side = none
  other : after.slot side.other = before.slot side.other
  active : after.active = if (before.slot side.other).isSome then before.active else none
  chooser : after.chooser = before.chooser
  outline : after.document.outline = before.document.outline
  choices : ∀ node, after.document.choice? node =
    if before.slot side = some node then none else before.document.choice? node

theorem slot_release (session : Session) (side : Side) :
    session.release.1.slot side = session.slot side := by
  rcases of_release session with same | ⟨chain, -, same⟩
  · rw [same]
  · rw [same, slot_active]

/-- A session in which a slot was emptied works on its chain as long as the other slot is full. -/
theorem active_release (empty : session.slot side = none) :
    session.release.1.active =
      if (session.slot side.other).isSome then session.active else none := by
  obtain ⟨document, active, left, right, chooser⟩ := session
  cases side with
  | left =>
      cases (show left = none from empty)
      cases right <;> cases active <;> rfl
  | right =>
      cases (show right = none from empty)
      cases left <;> cases active <;> rfl

theorem nextToClear?_eq_none_iff :
    session.nextToClear? = none ↔ ∀ side, session.slot side = none := by
  have slots : (∀ side, session.slot side = none) ↔ session.left = none ∧ session.right = none :=
    ⟨fun empty => ⟨empty .left, empty .right⟩, fun empty => Side.both .left empty.1 empty.2⟩
  rw [slots, nextToClear?]
  cases session.left <;> cases session.right <;> simp

/-- A slot is emptied next if it is full, and the left one only if the right one is empty. -/
theorem nextToClear?_eq_some_iff : session.nextToClear? = some side ↔
    (session.slot side).isSome ∧ (side = .left → session.right = none) := by
  obtain ⟨document, active, left, right, chooser⟩ := session
  cases side <;> cases left <;> cases right <;> simp [nextToClear?, slot]

/-- Going back empties a slot if no list is shown. -/
theorem Settled.exists_empties (settled : session.Settled nextId) (hidden : session.chooser = none)
    (next : session.nextToClear? = some side) :
    ∃ step, session.escape = .ok step ∧ step.answer = true ∧ step.closed = none ∧
      step.session.Settled nextId ∧ session.Empties side step.session := by
  obtain ⟨later, cleared, tidy, changed⟩ := settled.exists_clear side
  let emptied : Session := { session.setSlot side none with document := later }
  have done : session.escape = .ok {
      answer := true
      session := emptied.release.1
      changes := (session.slot side).toList.map .node ++ emptied.release.2 } := by
    simp only [escape, hidden, next, bind, Except.bind, cleared]
    rfl
  have empty : emptied.slot side = none := by rw [slot_document, slot_setSlot]
  have other : emptied.slot side.other = session.slot side.other := by
    rw [slot_document, slot_setSlot_of_ne side.other_ne]
  refine ⟨_, done, rfl, rfl, tidy.settled_release, ?_⟩
  constructor
  case slot => exact (slot_release ..).trans empty
  case other => exact (slot_release ..).trans other
  case active => rw [active_release empty, other, active_setSlot]
  case chooser => exact (chooser_release _).trans (chooser_setSlot ..)
  case outline => exact outline_of_escape done
  case choices =>
    intro node
    rw [document_release]
    change (later.node? node).bind Node.choice = _
    rw [changed]
    split
    · cases session.document.node? node <;> rfl
    · rfl

/-! ## Choosing and going back -/

theorem Settled.active_eq_none (settled : session.Settled nextId)
    (empty : ∀ side, session.slot side = none) : session.active = none := by
  cases active : session.active with
  | none => rfl
  | some chain =>
      obtain ⟨side, selected, held⟩ := settled.busy chain active
      cases (empty side).symm.trans held

/-- To empty the slot that was filled is to be back. -/
theorem Fills.eq_of_empties (fills : before.Fills node side link after)
    (empties : after.Empties side last) (settled : before.Settled nextId)
    (between : after.Settled nextId) (settled' : last.Settled nextId)
    (free : before.slot side = none) (unchosen : before.document.choice? node = none)
    (hidden : before.chooser = none) : last = before := by
  have other : last.slot side.other = before.slot side.other := empties.other.trans fills.other
  refine eq_of_outline_eq settled.intact settled'.intact
    (side.both (empties.slot.trans free.symm) other) ?_ ?_
    (empties.outline.trans fills.outline) fun selected => ?_
  · rw [empties.active, fills.other]
    cases held : before.slot side.other with
    | none => exact (settled.active_eq_none (side.both free held)).symm
    | some selected =>
        -- the session works on the chain of both nodes after the choice
        have together := (between.held _ _ (fills.other.trans held)).1
        exact together.trans (settled.held _ _ held).1.symm
  · exact empties.chooser.trans (fills.chooser.trans hidden.symm)
  · rw [empties.choices, fills.slot, fills.choices]
    by_cases same : selected = node
    · rw [if_pos (congrArg some same.symm), same, unchosen]
    · rw [if_neg fun equal => same (Option.some.inj equal).symm, if_neg same]

/-- A choice can be made before the other slot is emptied, or after. -/
theorem Fills.eq_of_empties_other {back alone : Session}
    (fills : before.Fills node side link after) (empties : after.Empties side.other last)
    (empties' : before.Empties side.other back) (fills' : back.Fills node side link alone)
    (settled : last.Settled nextId) (settled' : alone.Settled nextId)
    (apart : before.slot side.other ≠ some node) : last = alone := by
  have slot : last.slot side = some node := by
    rw [← side.other_other, empties.other, side.other_other, fills.slot]
  refine eq_of_outline_eq settled'.intact settled.intact
    (side.both (slot.trans fills'.slot.symm) ?_) ?_ ?_ ?_ fun selected => ?_
  · rw [empties.slot, fills'.other, empties'.slot]
  · rw [empties.active, side.other_other, fills.slot, fills.active, fills'.active]
    rfl
  · rw [empties.chooser, fills.chooser, fills'.chooser]
  · rw [empties.outline, fills.outline, fills'.outline, empties'.outline]
  · rw [empties.choices, fills.other, fills.choices, fills'.choices, empties'.choices]
    by_cases same : selected = node
    · rw [same, if_neg apart, if_pos rfl, if_pos rfl]
    · rw [if_neg same, if_neg same]

/-- Going back takes a choice back that was made on the right, or with nothing on the right. -/
theorem Settled.exists_undone (settled : session.Settled nextId) (hidden : session.chooser = none)
    (decided : session.admission node = .ok .admitted)
    (known : session.document.node? node = some found) (link : Link)
    (undoes : found.side = .right ∨ session.right = none) :
    ∃ chosen back, session.choose node link = .ok chosen ∧ chosen.answer = true ∧
      chosen.session.escape = .ok back ∧ back.answer = true ∧ back.session = session := by
  obtain ⟨chosen, chose, between, fills⟩ := settled.exists_fills decided known link
  -- the slot that was filled is the one that is emptied next
  have next : chosen.nextToClear? = some found.side := by
    refine nextToClear?_eq_some_iff.2 ⟨Option.isSome_iff_exists.2 ⟨node, fills.slot⟩, ?_⟩
    intro onLeft
    have other := fills.other
    rw [onLeft] at other
    exact other.trans (undoes.resolve_left fun onRight => nomatch onLeft.symm.trans onRight)
  obtain ⟨back, went, answer, -, settled', empties⟩ := between.exists_empties fills.chooser next
  refine ⟨_, back, chose, rfl, went, answer, ?_⟩
  exact fills.eq_of_empties empties settled between settled'
    (settled.slot_eq_none_of_admitted decided known)
    (settled.choice?_eq_none (settled.slot_ne_of_admitted decided fun same => nomatch same)) hidden

/-- Going back after a choice on the left takes back that on the right, if there is one, as if this
had been done before the choice. -/
theorem Settled.exists_exchanged (settled : session.Settled nextId)
    (hidden : session.chooser = none) (decided : session.admission node = .ok .admitted)
    (known : session.document.node? node = some found) (link : Link) (onLeft : found.side = .left)
    {selected : NodeId} (held : session.right = some selected) :
    ∃ chosen back earlier alone, session.choose node link = .ok chosen ∧ chosen.answer = true ∧
      chosen.session.escape = .ok back ∧ back.answer = true ∧
      session.escape = .ok earlier ∧ earlier.session.choose node link = .ok alone ∧
      back.session = alone.session ∧ back.session.left = some node ∧
      back.session.right = none := by
  obtain ⟨chosen, chose, between, fills⟩ := settled.exists_fills decided known link
  have free := settled.slot_eq_none_of_admitted decided known
  rw [onLeft] at fills free
  have next : ∀ {session : Session}, session.slot .right = some selected →
      session.nextToClear? = some .right := fun held =>
    nextToClear?_eq_some_iff.2
      ⟨Option.isSome_iff_exists.2 ⟨selected, held⟩, fun same => nomatch same⟩
  obtain ⟨back, went, answer, -, settled', empties⟩ :=
    between.exists_empties fills.chooser (next (fills.other.trans held))
  obtain ⟨earlier, went', -, -, idle, empties'⟩ := settled.exists_empties hidden (next held)
  -- nothing is selected any more, so the node is admitted
  obtain ⟨same, known', bare⟩ := (Document.Grows.of_outline_eq empties'.outline).exists_node known
  have empty : ∀ side, earlier.session.slot side = none :=
    Side.both .right empties'.slot (empties'.other.trans free)
  have decided' : earlier.session.admission node = .ok .admitted :=
    (idle.decides node).admitted.2 ⟨⟨same, known'⟩, .inl empty⟩
  obtain ⟨alone, chose', last, fills'⟩ := idle.exists_fills decided' known' link
  have onLeft' : same.side = .left := (congrArg Node.side bare).trans onLeft
  rw [onLeft'] at fills'
  refine ⟨_, back, earlier, _, chose, rfl, went, answer, went', chose', ?_, ?_, empties.slot⟩
  · exact fills.eq_of_empties_other empties empties' fills' settled' last
      (settled.slot_ne_of_admitted decided (fun same => nomatch same) .right)
  · exact empties.other.trans fills.slot

end Session

namespace Workspace

variable {workspace : Workspace}

/-! ## Undoing the last choice -/

theorem run_cons {operation : Operation} {outcome : Outcome}
    (done : workspace.perform operation = .ok outcome) (rest : List Operation) :
    workspace.run (operation :: rest) = outcome.workspace.run rest := by
  rw [run, List.foldlM_cons, done]
  rfl

/-- Going back after a choice takes it back, unless the node stands on the left and the other
operand was selected before it.  Then the choice for that one is taken back, as if this had been
done before the choice. -/
theorem exists_run_undoes (nextId : ChainId) (operations : List Operation) :
    ∃ workspace, ({ nextId } : Workspace).run operations = .ok workspace ∧
      (workspace.session.chooser = none → ∀ node found link,
        workspace.session.admission node = .ok .admitted →
        workspace.session.document.node? node = some found →
        ∃ chosen back, workspace.perform (.choose node link) = .ok chosen ∧
          chosen.accepted = true ∧ chosen.workspace.perform .escape = .ok back ∧
          back.accepted = true ∧
          (back.workspace = workspace ↔
            found.side = .right ∨ workspace.session.right = none) ∧
          (back.workspace ≠ workspace →
            workspace.run [.escape, .choose node link] = .ok back.workspace ∧
            back.workspace.session.left = some node ∧
            back.workspace.session.right = none)) := by
  obtain ⟨workspace, ran, settled⟩ := (settled_empty nextId).exists_run operations
  refine ⟨workspace, ran, fun hidden node found link decided known => ?_⟩
  by_cases undoes : found.side = .right ∨ workspace.session.right = none
  · obtain ⟨chosen, back, chose, accepted, went, answer, same⟩ :=
      settled.session.exists_undone hidden decided known link undoes
    have restored : ({ workspace with session := back.session } : Workspace) = workspace := by
      rw [same]
    exact ⟨_, _, perform_choose chose, accepted, perform_escape went, answer,
      iff_of_true restored undoes, fun other => absurd restored other⟩
  · obtain ⟨notRight, full⟩ := not_or.1 undoes
    obtain ⟨selected, held⟩ := Option.ne_none_iff_exists'.1 full
    have onLeft : found.side = .left := Side.eq_other_of_ne notRight
    obtain ⟨chosen, back, earlier, alone, chose, accepted, went, answer, went', chose', same,
      left, right⟩ := settled.session.exists_exchanged hidden decided known link onLeft held
    have exchanged : workspace.run [.escape, .choose node link] =
        .ok { workspace with session := back.session } := by
      rw [run_cons (perform_escape went'), same]
      exact run_cons (perform_choose chose') []
    have other : ({ workspace with session := back.session } : Workspace) ≠ workspace := by
      intro restored
      have kept : back.session.right = workspace.session.right :=
        congrArg (fun workspace => workspace.session.right) restored
      exact full (kept.symm.trans right)
    exact ⟨_, _, perform_choose chose, accepted, perform_escape went, answer,
      iff_of_false other undoes, fun _ => ⟨exchanged, left, right⟩⟩

/-- Not every choice is taken back by going back.  If the second operand of a sum is selected and
then the first one, the choice for the second one is taken back. -/
theorem not_forall_undoes :
    ¬ ∀ (nextId : ChainId) (operations : List Operation) (workspace : Workspace) (node : NodeId)
      (link : Link) (chosen back : Outcome),
      ({ nextId } : Workspace).run operations = .ok workspace →
      workspace.session.chooser = none → workspace.session.admission node = .ok .admitted →
      workspace.perform (.choose node link) = .ok chosen →
      chosen.workspace.perform .escape = .ok back →
      back.workspace.session.left = workspace.session.left ∧
        back.workspace.session.right = workspace.session.right ∧
        back.workspace.session.active = workspace.session.active ∧
        ∀ other, back.workspace.session.document.choice? other =
          workspace.session.document.choice? other := by
  intro undoes
  let operations : List Operation :=
    [.begin {} (.named "a" + .named "b"), .choose ⟨0, 2⟩ ⟨.equal, .named "c"⟩]
  obtain ⟨left, -⟩ := undoes 0 operations _ ⟨0, 1⟩ ⟨.equal, .named "d"⟩ _ _ rfl rfl rfl rfl rfl
  exact absurd left (by decide)

end Workspace

/-! ## Going back all the way -/

namespace Session

variable {nextId : ChainId} {session : Session}

/-- How often it is possible to go back: once for the list that is shown, and once for each slot
that is full. -/
def level (session : Session) : Nat :=
  session.left.isSome.toNat + session.right.isSome.toNat + session.chooser.isSome.toNat

theorem level_le (session : Session) : session.level ≤ 3 := by
  have left := session.left.isSome.toNat_le
  have right := session.right.isSome.toNat_le
  have chooser := session.chooser.isSome.toNat_le
  rw [level]
  omega

theorem level_eq (session : Session) (side : Side) : session.level =
    (session.slot side).isSome.toNat + (session.slot side.other).isSome.toNat +
      session.chooser.isSome.toNat := by
  cases side with
  | left => rfl
  | right => exact congrArg (· + _) (Nat.add_comm ..)

theorem level_eq_zero (empty : ∀ side, session.slot side = none)
    (hidden : session.chooser = none) : session.level = 0 := by
  rw [level_eq session .left, empty, empty, hidden]
  rfl

/-- To empty a slot that was full is to go one level down. -/
theorem Empties.level_eq {side : Side} {after : Session} (empties : session.Empties side after)
    (full : (session.slot side).isSome = true) : session.level = after.level + 1 := by
  rw [session.level_eq side, after.level_eq side, empties.slot, empties.other, empties.chooser,
    full, Bool.toNat_true, Option.isSome_none, Bool.toNat_false]
  omega

/-- A session in which nothing is selected and no list is shown is its document without choices. -/
theorem Settled.eq_bare (settled : session.Settled nextId)
    (empty : ∀ side, session.slot side = none) (hidden : session.chooser = none) :
    session = { document := session.document.bare } := by
  refine eq_of_outline_eq settled.intact.bare settled.intact (fun side => ?_)
    (settled.active_eq_none empty) hidden session.document.outline_bare.symm fun node => ?_
  · rw [empty]
    cases side <;> rfl
  · rw [Document.choice?_bare]
    exact settled.choice?_eq_none fun side held => nomatch (empty side).symm.trans held

/-- Going back is refused at the bottom, where nothing is chosen, and else leads one level down.  It
changes nothing but choices. -/
theorem Settled.exists_back (settled : session.Settled nextId) :
    ∃ step, session.escape = .ok step ∧ step.session.Settled nextId ∧
      step.session.document.outline = session.document.outline ∧
      (step = session.stay false ∧ session.level = 0 ∧
          session = { document := session.document.bare } ∨
        step.answer = true ∧ session.level = step.session.level + 1) := by
  obtain ⟨step, done, after, -⟩ := settled.exists_escape
  refine ⟨step, done, after, outline_of_escape done, ?_⟩
  cases shown : session.chooser with
  | some ticket =>
      rw [escape, shown] at done
      cases done
      refine .inr ⟨rfl, ?_⟩
      rw [level, level, shown]
      rfl
  | none =>
      cases next : session.nextToClear? with
      | none =>
          have empty := nextToClear?_eq_none_iff.1 next
          simp only [escape, shown, next] at done
          cases done
          exact .inl ⟨rfl, level_eq_zero empty shown, settled.eq_bare empty shown⟩
      | some side =>
          obtain ⟨step', done', answer, -, -, empties⟩ := settled.exists_empties shown next
          cases done.symm.trans done'
          exact .inr ⟨answer, empties.level_eq (nextToClear?_eq_some_iff.1 next).1⟩

end Session

namespace Workspace

variable {workspace : Workspace}

theorem trace_cons {operation : Operation} {outcome : Outcome} {rest : List Operation}
    {steps : List Step} (done : workspace.perform operation = .ok outcome)
    (traced : outcome.workspace.trace rest = .ok steps) :
    workspace.trace (operation :: rest) = .ok (⟨workspace, operation, outcome⟩ :: steps) := by
  simp only [trace, done, traced, bind, Except.bind, pure, Except.pure]

/-- The workspace with nothing selected and nothing chosen. -/
def idle (workspace : Workspace) : Workspace :=
  { workspace with session := { document := workspace.session.document.bare } }

/-- Going back as often as there are levels is possible every time, and then it is refused. -/
theorem Settled.exists_run_escapes (settled : workspace.Settled) {levels : Nat}
    (height : workspace.session.level = levels) :
    ∃ steps, workspace.trace (List.replicate levels .escape) = .ok steps ∧
      steps.map (·.outcome.accepted) = List.replicate levels true ∧
      workspace.run (List.replicate levels .escape) = .ok workspace.idle ∧
      workspace.idle.perform .escape = .ok { workspace := workspace.idle, accepted := false } := by
  induction levels generalizing workspace with
  | zero =>
      obtain ⟨step, done, -, -, ⟨rfl, -, bare⟩ | ⟨-, down⟩⟩ := settled.session.exists_back
      · have same : workspace.idle = workspace := by rw [idle, ← bare]
        rw [same]
        exact ⟨[], rfl, rfl, rfl, perform_escape done⟩
      · omega
  | succ levels ih =>
      obtain ⟨step, done, after, outline, ⟨-, bottom, -⟩ | ⟨answer, down⟩⟩ :=
        settled.session.exists_back
      · omega
      · have between := settled.withSession after
        have same : Workspace.idle { workspace with session := step.session } = workspace.idle :=
          congrArg (fun document => ({ workspace with session := { document } } : Workspace))
            (settled.session.intact.bare_eq_of_outline_eq after.intact outline)
        obtain ⟨steps, traced, accepted, ran, refused⟩ :=
          ih between (Nat.succ.inj (down.symm.trans height))
        rw [same] at ran refused
        have done := perform_escape done
        refine ⟨_, trace_cons done traced, ?_, (run_cons done _).trans ran, refused⟩
        rw [List.map_cons, accepted]
        exact congrArg (· :: _) answer

/-- Whatever is done from an empty workspace on, it is possible to go back as often as there are
slots that are full, and once more if a list is shown, and then no more.  What is left is the
document with nothing chosen and nothing else changed, and nothing selected in it. -/
theorem exists_run_idle (nextId : ChainId) (operations : List Operation) :
    ∃ workspace, ({ nextId } : Workspace).run operations = .ok workspace ∧
      workspace.session.level ≤ 3 ∧
      (∃ steps, workspace.trace (List.replicate workspace.session.level .escape) = .ok steps ∧
        steps.map (·.outcome.accepted) = List.replicate workspace.session.level true) ∧
      workspace.run (List.replicate workspace.session.level .escape) = .ok workspace.idle ∧
      workspace.idle.perform .escape = .ok { workspace := workspace.idle, accepted := false } ∧
      (∀ node, workspace.idle.session.document.choice? node = none) ∧
      workspace.idle.session.document.outline = workspace.session.document.outline := by
  obtain ⟨workspace, ran, settled⟩ := (settled_empty nextId).exists_run operations
  obtain ⟨steps, traced, accepted, went, refused⟩ := settled.exists_run_escapes rfl
  exact ⟨workspace, ran, workspace.session.level_le, ⟨steps, traced, accepted⟩, went, refused,
    workspace.session.document.choice?_bare, workspace.session.document.outline_bare⟩

/-- With both operands selected and a list shown, it is possible to go back three times. -/
example :
    let link : Link := ⟨.equal, .named "c"⟩
    let operations : List Operation := [.begin {} (.named "a" * .named "b"),
      .choose ⟨0, 1⟩ link, .choose ⟨0, 2⟩ link, .request ⟨0, 0⟩ 7]
    (run {} operations).map (·.session.level) = .ok 3 ∧
      (run {} (operations ++ List.replicate 4 .escape)).map (·.session) =
        (run {} [.begin {} (.named "a" * .named "b")]).map (·.session) :=
  ⟨rfl, rfl⟩

end Workspace

end Calculation
