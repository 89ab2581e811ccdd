import Calculation.Proofs.Run

/-!
The forms that a step can have.

Every operation of a session either is refused, and then it is no step at all, or it is put together
from the few things that can happen to a session: a list is shown or closed, a slot is emptied or
filled, a chain grows, the session takes up a chain or lets go of it.  What is claimed of all steps
is shown for these parts, and the operations are taken apart into them here and nowhere else.

* `Session.of_request`, `Session.of_choose`, `Session.of_escape`, `Session.of_commit`: the
  operations of a session.
* `Session.Tidy.of_answered`: what a request is answered with.
* `Workspace.Settled.course`: the operations of a workspace.  Those on loose chains do not concern
  its session, unless a chain is moved into the document.
-/

namespace Calculation

namespace Session

variable {session : Session} {node : NodeId}

/-! ## Parts -/

/-- A slot that is emptied held nothing, or the choice at its node was taken back. -/
theorem of_clear {side : Side} {after : Session × List Change}
    (done : session.clear side = .ok after) :
    (session.slot side = none ∧ after = (session, [])) ∨
      ∃ node later, session.slot side = some node ∧
        session.document.annotate node none = .ok later ∧
        after = ({ session.setSlot side none with document := later }, [.node node]) := by
  unfold clear at done
  split at done
  · rename_i empty
    cases done
    exact .inl ⟨empty, rfl⟩
  · rename_i node held
    obtain ⟨later, annotated, last⟩ := exists_of_bind_eq_ok done
    cases last
    exact .inr ⟨node, later, held, annotated, rfl⟩

/-- Both slots are emptied by emptying one after the other. -/
theorem of_clearBoth {after : Session × List Change} (done : session.clearBoth = .ok after) :
    ∃ middle last, session.clear .right = .ok middle ∧ middle.1.clear .left = .ok last ∧
      after = (last.1, middle.2 ++ last.2) := by
  obtain ⟨middle, clearRight, rest⟩ := exists_of_bind_eq_ok done
  obtain ⟨last, clearLeft, emptied⟩ := exists_of_bind_eq_ok rest
  cases emptied
  exact ⟨middle, last, clearRight, clearLeft, rfl⟩

/-- A session that is made to work on the chain of a node was free to, or did so already. -/
theorem of_activate {after : Session} (done : session.activate node = .ok after) :
    (session.active = none ∧ after = { session with active := some node.chain }) ∨
      (session.active = some node.chain ∧ after = session) := by
  unfold activate at done
  split at done
  · rename_i idle
    cases done
    exact .inl ⟨idle, rfl⟩
  · rename_i active working
    split at done
    · rename_i same
      cases done
      exact .inr ⟨working.trans (congrArg some same), rfl⟩
    · cases done

theorem document_of_activate {after : Session} (done : session.activate node = .ok after) :
    after.document = session.document := by
  rcases of_activate done with ⟨-, rfl⟩ | ⟨-, rfl⟩ <;> rfl

/-- A node that is put into a slot gets a choice that knows its side. -/
theorem of_place {link : Link} {step : Transition Bool}
    (done : session.place node link = .ok step) :
    step = session.stay false ∨ ∃ chain found later,
      session.document.find? node.chain = some chain ∧ chain.node node = .ok found ∧
      session.document.annotate node (some ⟨found.side, link⟩) = .ok later ∧
      step = {
        answer := true
        session := { session.setSlot found.side (some node) with document := later }
        changes := [.node node] } := by
  unfold place at done
  split at done
  · cases done
    exact .inl rfl
  · rename_i chain listed
    obtain ⟨found, known, rest⟩ := exists_of_bind_eq_ok done
    obtain ⟨later, annotated, last⟩ := exists_of_bind_eq_ok rest
    cases last
    exact .inr ⟨chain, found, later, listed, known, annotated, rfl⟩

/-- A session that lets go of its chain says so, and nothing else happens to it. -/
theorem of_release (session : Session) :
    session.release = (session, []) ∨ ∃ chain, session.active = some chain ∧
      session.release = ({ session with active := none }, [.chain chain]) := by
  unfold release
  split
  · rename_i chain _ _ active
    exact .inr ⟨chain, active, rfl⟩
  · exact .inl rfl

theorem document_release (session : Session) :
    session.release.1.document = session.document := by
  rcases of_release session with same | ⟨chain, -, same⟩ <;> rw [same]

theorem chooser_release (session : Session) : session.release.1.chooser = session.chooser := by
  rcases of_release session with same | ⟨chain, -, same⟩ <;> rw [same]

/-! ## Operations -/

/-- A request that is answered is one for a node that is admitted.  It shows a new list, in the
place of the one that was shown. -/
theorem of_request {ticket : Ticket} {step : Transition (Option (List Link))}
    (done : session.request node ticket = .ok step) :
    step = session.stay none ∨
      (∃ admission, session.admission node = .ok admission ∧ admission ≠ .refused) ∧
        (∃ chain, session.document.find? node.chain = some chain) ∧ ∃ links, step = {
          answer := some links
          session := { session with chooser := some ticket }
          closed := session.chooser } := by
  obtain ⟨admission, decided, rest⟩ := exists_of_bind_eq_ok done
  split at rest
  · cases rest
    exact .inl rfl
  · rename_i admitted
    obtain ⟨theory, -, rest⟩ := exists_of_bind_eq_ok rest
    split at rest
    · rename_i known
      cases rest
      obtain ⟨chain, listed, -⟩ := Document.exists_owner known
      exact .inr ⟨⟨admission, decided, admitted⟩, ⟨chain, listed⟩, _, rfl⟩
    · cases rest
      exact .inl rfl

/-- A request that is answered is for a node of the document, and the answer is what the rules of
its chain suggest, resolved with what its operands say. -/
theorem Tidy.of_answered {nextId : ChainId} (tidy : session.Tidy nextId) {ticket : Ticket}
    {step : Transition (Option (List Link))} (asked : session.request node ticket = .ok step)
    {links : List Link} (answer : step.answer = some links) :
    ∃ chain found, session.document.find? node.chain = some chain ∧
      session.document.node? node = some found ∧
      links = ((found.operands.filterMap chain.said?).foldl Theory.resolve
        chain.theory).suggestions found.expr := by
  obtain ⟨admission, -, rest⟩ := exists_of_bind_eq_ok asked
  split at rest
  · cases rest
    cases answer
  · obtain ⟨theory, effective, rest⟩ := exists_of_bind_eq_ok rest
    split at rest
    · rename_i theory found known
      obtain ⟨chain, listed, -⟩ := Document.exists_owner known
      cases effective.symm.trans (tidy.effectiveTheory_eq known listed)
      cases rest
      exact ⟨chain, found, listed, known, (Option.some.inj answer).symm⟩
    · cases rest
      cases answer

/-- What is chosen is put into a slot once the session works on the chain.  The slots are emptied
before if the node takes the place of what was selected. -/
theorem of_choose {link : Link} {step : Transition Bool}
    (done : session.choose node link = .ok step) :
    step = session.stay false ∨ ∃ admission active ready cleared placed,
      session.admission node = .ok admission ∧ admission ≠ .refused ∧
      session.activate node = .ok active ∧
      (admission = .replacing ∧ active.clearBoth = .ok (ready, cleared) ∨
        admission ≠ .replacing ∧ ready = active ∧ cleared = []) ∧
      ({ ready with chooser := none } : Session).place node link = .ok placed ∧
      step = { placed with changes := cleared ++ placed.changes } := by
  obtain ⟨admission, decided, rest⟩ := exists_of_bind_eq_ok done
  split at rest
  · cases rest
    exact .inl rfl
  · rename_i admitted
    obtain ⟨active, activated, rest⟩ := exists_of_bind_eq_ok rest
    split at rest
    · rename_i replacing
      obtain ⟨⟨ready, cleared⟩, emptied, rest⟩ := exists_of_bind_eq_ok rest
      obtain ⟨placed, inserted, last⟩ := exists_of_bind_eq_ok rest
      cases last
      exact .inr ⟨admission, active, ready, cleared, placed, decided, admitted, activated,
        .inl ⟨replacing, emptied⟩, inserted, rfl⟩
    · rename_i beside
      obtain ⟨ready, kept, rest⟩ := exists_of_bind_eq_ok rest
      cases kept
      obtain ⟨placed, inserted, last⟩ := exists_of_bind_eq_ok rest
      cases last
      exact .inr ⟨admission, active, active, [], placed, decided, admitted, activated,
        .inr ⟨beside, rfl, rfl⟩, inserted, rfl⟩

/-- To go back is to close the list that is shown, or else to empty a slot and to let go of the
chain if that was the last. -/
theorem of_escape {step : Transition Bool} (done : session.escape = .ok step) :
    (∃ ticket, session.chooser = some ticket ∧ step = {
      answer := true
      session := { session with chooser := none }
      closed := some ticket }) ∨
    session.chooser = none ∧ (step = session.stay false ∨
      ∃ side cleared, session.clear side = .ok cleared ∧ step = {
        answer := true
        session := cleared.1.release.1
        changes := cleared.2 ++ cleared.1.release.2 }) := by
  unfold escape at done
  split at done
  · rename_i ticket shown
    cases done
    exact .inl ⟨ticket, shown, rfl⟩
  · rename_i hidden
    split at done
    · cases done
      exact .inr ⟨hidden, .inl rfl⟩
    · rename_i side next
      obtain ⟨cleared, emptied, last⟩ := exists_of_bind_eq_ok done
      cases last
      exact .inr ⟨hidden, .inr ⟨side, cleared, emptied, rfl⟩⟩

/-- A commit lets a chain grow, empties the slots, and lets go of the chain. -/
theorem of_commit {step : Transition Bool} (done : session.commit = .ok step) :
    step = session.stay false ∨ ∃ chain link cleared,
      session.committable? = .ok (some (chain, link)) ∧
      ({ session with document := session.document.insert (chain.append link) } :
        Session).clearBoth = .ok cleared ∧
      step = {
        answer := true
        session := cleared.1.release.1
        changes := .chain chain.id :: (cleared.2 ++ cleared.1.release.2) } := by
  obtain ⟨answer, asked, rest⟩ := exists_of_bind_eq_ok done
  cases answer with
  | none =>
      cases rest
      exact .inl rfl
  | some answer =>
      obtain ⟨chain, link⟩ := answer
      obtain ⟨cleared, emptied, last⟩ := exists_of_bind_eq_ok rest
      cases last
      exact .inr ⟨chain, link, cleared, asked, emptied, rfl⟩

end Session

namespace Workspace

variable {workspace : Workspace}

/-- The operation is about loose chains. -/
def Operation.isAside : Operation → Bool
  | .start _ _ | .sample | .extend _ _ | .copy _ | .adopt _ => true
  | .begin _ _ | .request _ _ | .choose _ _ | .dismiss | .escape | .commit => false

/-- What an operation in a settled workspace comes to. -/
inductive Course (workspace : Workspace) : Operation → Outcome → Prop
  /-- A chain is started in the document under an id that is free. -/
  | begun (theory : Theory) (beginning : Expr)
      (new : workspace.session.document.find? workspace.nextId = none) :
      workspace.Course (.begin theory beginning)
        { workspace := (workspace.begin theory beginning).2 }
  /-- A loose chain comes into the document under an id that is free. -/
  | adopted (chain : Chain) (new : workspace.session.document.find? chain.id = none)
      (blank : chain.Blank) :
      workspace.Course (.adopt chain.id) {
        workspace := { workspace with
          session := { workspace.session with document := workspace.session.document.insert chain }
          loose := workspace.loose.filter (·.id ≠ chain.id) } }
  /-- The session has no part in it. -/
  | aside {operation : Operation} {outcome : Outcome} (aside : operation.isAside = true)
      (session : outcome.workspace.session = workspace.session) (changes : outcome.changes = [])
      (closed : outcome.closed = none) : workspace.Course operation outcome
  | request (node : NodeId) (ticket : Ticket) (step : Transition (Option (List Link)))
      (done : workspace.session.request node ticket = .ok step) :
      workspace.Course (.request node ticket) {
        workspace := { workspace with session := step.session }
        accepted := step.answer.isSome
        suggestions := step.answer.getD []
        changes := step.changes
        closed := step.closed }
  | choose (node : NodeId) (link : Link) (step : Transition Bool)
      (done : workspace.session.choose node link = .ok step) :
      workspace.Course (.choose node link) (workspace.follow step)
  | dismiss : workspace.Course .dismiss (workspace.follow workspace.session.dismiss)
  | escape (step : Transition Bool) (done : workspace.session.escape = .ok step) :
      workspace.Course .escape (workspace.follow step)
  | commit (step : Transition Bool) (done : workspace.session.commit = .ok step) :
      workspace.Course .commit (workspace.follow step)

theorem Settled.course (settled : workspace.Settled) {operation : Operation} {outcome : Outcome}
    (done : workspace.perform operation = .ok outcome) : workspace.Course operation outcome := by
  cases operation with
  | begin theory beginning =>
      cases done
      exact .begun theory beginning settled.session.intact.find?_eq_none
  | start theory beginning =>
      cases done
      exact .aside rfl rfl rfl rfl
  | sample =>
      cases done
      exact .aside rfl rfl rfl rfl
  | extend chain link =>
      cases done
      exact .aside rfl rfl rfl rfl
  | copy id =>
      rw [perform] at done
      split at done
      · cases done
        exact .aside rfl rfl rfl rfl
      · cases done
        exact .aside rfl rfl rfl rfl
  | adopt id =>
      rw [perform] at done
      split at done
      · cases done
        exact .aside rfl rfl rfl rfl
      · rename_i chain found
        have same : chain.id = id := by simpa using List.find?_some found
        subst same
        rw [Workspace.adopt, Session.addChain] at done
        cases listed : workspace.session.document.find? chain.id with
        | some other =>
            rw [listed] at done
            cases done
            exact .aside rfl rfl rfl rfl
        | none =>
            rw [listed] at done
            cases done
            exact .adopted chain listed (settled.loose chain (List.mem_of_find?_eq_some found)).2
  | request node ticket =>
      obtain ⟨step, asked, last⟩ := exists_of_bind_eq_ok done
      cases last
      exact .request node ticket step asked
  | choose node link =>
      obtain ⟨step, chose, last⟩ := exists_of_bind_eq_ok done
      cases last
      exact .choose node link step chose
  | dismiss =>
      cases done
      exact .dismiss
  | escape =>
      obtain ⟨step, escaped, last⟩ := exists_of_bind_eq_ok done
      cases last
      exact .escape step escaped
  | commit =>
      obtain ⟨step, committed, last⟩ := exists_of_bind_eq_ok done
      cases last
      exact .commit step committed

end Workspace

end Calculation
