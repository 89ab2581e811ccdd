import Calculation.Proofs.Transition

/-!
A list of suggestions that is shown stays right until it is closed.

Nothing ties the list to the node it is for, and choosing does not look at it.  But whatever could
change what is suggested for the node also closes the list (`Workspace.Effect`): while it is shown,
the slots stay as they are, and so does every chain of the document (`Session.Undisturbed`).

The steps of a run are what was done and what it came to (`Workspace.trace`), so that it can be said
which request was answered last.

* `Workspace.Settled.effect`: what one operation does to the list.
* `Workspace.Settled.exists_trace`: what every step keeps, every run keeps.
* `Workspace.exists_run_current`: in every state that can be reached, a list that is shown is right.
-/

namespace Calculation

/-- What comes last in a list is found first from the end. -/
theorem find?_reverse_concat {α : Type} (wanted : α → Bool) (list : List α) (last : α) :
    (list ++ [last]).reverse.find? wanted =
      if wanted last then some last else list.reverse.find? wanted := by
  rw [List.reverse_append, List.reverse_singleton, List.singleton_append, List.find?_cons]
  cases wanted last <;> rfl

namespace Session

variable {nextId : ChainId} {session before later : Session} {node : NodeId}

/-! ## What a request depends on -/

/-- The slots are as before, and so are the chains that were there before. -/
structure Undisturbed (before later : Session) : Prop where
  left : later.left = before.left
  right : later.right = before.right
  chains : ∀ id chain, before.document.find? id = some chain →
    later.document.find? id = some chain

theorem Undisturbed.refl (session : Session) : session.Undisturbed session :=
  ⟨rfl, rfl, fun _ _ listed => listed⟩

theorem Undisturbed.trans {last : Session} (first : before.Undisturbed later)
    (second : later.Undisturbed last) : before.Undisturbed last where
  left := second.left.trans first.left
  right := second.right.trans first.right
  chains id chain listed := second.chains id chain (first.chains id chain listed)

/-- Two sessions in which the same is selected, and the chain of the node is the same. -/
structure Alike (node : NodeId) (before later : Session) : Prop where
  left : later.left = before.left
  right : later.right = before.right
  chain : later.document.find? node.chain = before.document.find? node.chain

theorem Undisturbed.alike (undisturbed : before.Undisturbed later) {chain : Chain}
    (listed : before.document.find? node.chain = some chain) : before.Alike node later :=
  ⟨undisturbed.left, undisturbed.right,
    (undisturbed.chains _ chain listed).trans listed.symm⟩

theorem Alike.admission_eq (alike : before.Alike node later) :
    later.admission node = before.admission node := by
  simp only [admission, Document.owner?, selected, alike.left, alike.right, alike.chain]

/-- The same is suggested for the node. -/
theorem Alike.answer_eq (alike : before.Alike node later) (ticket ticket' : Ticket) :
    (later.request node ticket').map Transition.answer =
      (before.request node ticket).map Transition.answer := by
  have effective : later.effectiveTheory node = before.effectiveTheory node := by
    simp only [effectiveTheory, Document.owner?, alike.chain]
  have known : later.document.node? node = before.document.node? node := by
    rw [Document.node?_eq, Document.node?_eq, alike.chain]
  rw [request, request, alike.admission_eq, effective, known]
  cases before.admission node with
  | error => rfl
  | ok admission =>
      simp only [bind, Except.bind]
      split
      · rfl
      · cases before.effectiveTheory node with
        | error => rfl
        | ok theory =>
            cases theory <;> cases before.document.node? node <;> rfl

/-! ## What operations do to the list -/

theorem chooser_of_clear {side : Side} {after : Session × List Change}
    (done : session.clear side = .ok after) : after.1.chooser = session.chooser := by
  rcases of_clear done with ⟨-, rfl⟩ | ⟨node, later, -, -, rfl⟩
  · rfl
  · exact chooser_setSlot ..

/-- No list is shown after a choice that is not refused. -/
theorem Settled.chooser_of_choose (settled : session.Settled nextId) {link : Link}
    {step : Transition Bool} (done : session.choose node link = .ok step) :
    step.session.chooser = if step.answer then none else session.chooser := by
  obtain ⟨admission, decided, admits⟩ := settled.exists_admits node
  by_cases refused : admission = .refused
  · simp only [choose, decided, bind, Except.bind, if_pos refused] at done
    cases done
    rfl
  · obtain ⟨step', done', -, answer, hidden⟩ :=
      settled.exists_choose_of_admits decided admits refused link
    cases done.symm.trans done'
    rw [hidden, if_pos answer]

/-- No list is shown after going back. -/
theorem chooser_of_escape {step : Transition Bool} (done : session.escape = .ok step) :
    step.session.chooser = none := by
  rcases of_escape done with ⟨ticket, -, rfl⟩ | ⟨hidden, rfl | ⟨side, cleared, emptied, rfl⟩⟩
  · rfl
  · exact hidden
  · exact (chooser_release _).trans ((chooser_of_clear emptied).trans hidden)

/-- While a list is shown nothing can be committed. -/
theorem Tidy.commit_eq_stay (tidy : session.Tidy nextId) {ticket : Ticket}
    (shown : session.chooser = some ticket) : session.commit = .ok (session.stay false) := by
  obtain ⟨answer, asked, -⟩ := tidy.exists_committable?
  cases answer with
  | none =>
      rw [commit, asked]
      rfl
  | some answer =>
      obtain ⟨chain, link⟩ := answer
      obtain ⟨node, found, choice, onLeft, listed, here, root, -⟩ := exists_of_committable? asked
      have known : session.document.node? node = some found := by
        rw [Document.node?_eq, listed]
        exact here
      cases shown.symm.trans (tidy.unasked .left node found onLeft known root)

/-- A commit leaves the list alone, as there is none if it succeeds. -/
theorem chooser_of_commit {step : Transition Bool} (done : session.commit = .ok step) :
    step.session.chooser = session.chooser := by
  rcases of_commit done with rfl | ⟨chain, link, cleared, -, emptied, rfl⟩
  · rfl
  · obtain ⟨middle, last, clearRight, clearLeft, rfl⟩ := of_clearBoth emptied
    -- a chain has grown before the slots are emptied, but the list is the same
    have grown : middle.1.chooser = session.chooser := (chooser_of_clear clearRight).trans rfl
    calc
      last.1.release.1.chooser = last.1.chooser := chooser_release _
      _ = middle.1.chooser := chooser_of_clear clearLeft
      _ = session.chooser := grown

end Session

namespace Workspace

variable {workspace : Workspace}

/-! ## What one operation does -/

/-- One operation of a run: the workspace before it, what was asked, and what it came to. -/
structure Step where
  before : Workspace
  operation : Operation
  outcome : Outcome

/-- The step is a request that was answered. -/
def Step.isAnswered (step : Step) : Bool :=
  match step.operation with
  | .request _ _ => step.outcome.accepted
  | _ => false

theorem Step.isAnswered_of_isAside {step : Step} (aside : step.operation.isAside = true) :
    step.isAnswered = false := by
  unfold isAnswered
  split
  · rename_i same
    rw [same] at aside
    cases aside
  · rfl

/-- What a step does to the list that is shown: it shows one for the node that is asked about, or
leaves none, or leaves the list and all that it depends on. -/
inductive Effect (step : Step) : Prop where
  | asked (node : NodeId) (ticket : Ticket) (operation : step.operation = .request node ticket)
      (answered : step.isAnswered = true)
      (session : step.outcome.workspace.session =
        { step.before.session with chooser := some ticket })
  | closed (unanswered : step.isAnswered = false)
      (hidden : step.outcome.workspace.session.chooser = none)
  | kept (unanswered : step.isAnswered = false)
      (chooser : step.outcome.workspace.session.chooser = step.before.session.chooser)
      (undisturbed : step.before.session.Undisturbed step.outcome.workspace.session)

/-- New chains do not disturb a session. -/
theorem undisturbed_insert {session : Session} {chain : Chain}
    (new : session.document.find? chain.id = none) :
    session.Undisturbed { session with document := session.document.insert chain } where
  left := rfl
  right := rfl
  chains id other listed := by
    rw [Document.find?_insert, if_neg]
    · exact listed
    · rintro rfl
      rw [new] at listed
      cases listed

/-- Every operation in a settled workspace has an effect of one of these kinds. -/
theorem Settled.effect (settled : workspace.Settled) {operation : Operation} {outcome : Outcome}
    (done : workspace.perform operation = .ok outcome) :
    Effect ⟨workspace, operation, outcome⟩ := by
  cases settled.course done with
  | begun theory beginning new => exact .kept rfl rfl (undisturbed_insert new)
  | adopted chain new blank => exact .kept rfl rfl (undisturbed_insert new)
  | aside aside session changes closed =>
      exact .kept (Step.isAnswered_of_isAside aside) (congrArg Session.chooser session)
        (session ▸ .refl _)
  | request node ticket step asked =>
      rcases Session.of_request asked with rfl | ⟨-, -, links, rfl⟩
      · exact .kept rfl rfl (.refl _)
      · exact .asked node ticket rfl rfl rfl
  | choose node link step chose =>
      obtain ⟨step', chose', -, stays⟩ := settled.session.exists_choose node link
      cases chose.symm.trans chose'
      have chooser := settled.session.chooser_of_choose chose
      cases answer : step.answer with
      | true => exact .closed rfl (chooser.trans (if_pos answer))
      | false =>
          cases stays answer
          exact .kept rfl rfl (.refl _)
  | dismiss => exact .closed rfl rfl
  | escape step escaped => exact .closed rfl (Session.chooser_of_escape escaped)
  | commit step committed =>
      cases shown : workspace.session.chooser with
      | none => exact .closed rfl ((Session.chooser_of_commit committed).trans shown)
      | some ticket =>
          cases committed.symm.trans (settled.session.commit_eq_stay shown)
          exact .kept rfl rfl (.refl _)

/-! ## Runs -/

/-- The steps of a run. -/
def trace (workspace : Workspace) : List Operation → Except Fault (List Step)
  | [] => pure []
  | operation :: rest => do
    let outcome ← workspace.perform operation
    let later ← outcome.workspace.trace rest
    pure (⟨workspace, operation, outcome⟩ :: later)

/-- What every step keeps, every run keeps. -/
theorem Settled.exists_trace (settled : workspace.Settled)
    (invariant : List Step → Workspace → Prop)
    (keeps : ∀ steps workspace operation outcome, workspace.Settled → invariant steps workspace →
      workspace.perform operation = .ok outcome →
      invariant (steps ++ [⟨workspace, operation, outcome⟩]) outcome.workspace)
    (steps : List Step) (holds : invariant steps workspace) (operations : List Operation) :
    ∃ later after, workspace.trace operations = .ok later ∧ workspace.run operations = .ok after ∧
      later.map Step.operation = operations ∧ after.Settled ∧ invariant (steps ++ later) after := by
  induction operations generalizing workspace steps with
  | nil => exact ⟨[], workspace, rfl, rfl, rfl, settled, by rwa [List.append_nil]⟩
  | cons operation rest ih =>
      obtain ⟨outcome, done, between⟩ := settled.exists_perform operation
      obtain ⟨later, after, traced, ran, same, last, holds⟩ :=
        ih between _ (keeps steps workspace operation outcome settled holds done)
      refine ⟨⟨workspace, operation, outcome⟩ :: later, after, ?_, ?_, ?_, last, ?_⟩
      · simp only [trace, done, traced, bind, Except.bind]
        rfl
      · rw [run, List.foldlM_cons, done]
        exact ran
      · rw [List.map_cons, same]
      · rwa [List.append_assoc] at holds

/-- The last request of a run that was answered. -/
def lastAnswered? (steps : List Step) : Option Step := steps.reverse.find? Step.isAnswered

theorem lastAnswered?_concat (steps : List Step) (step : Step) :
    lastAnswered? (steps ++ [step]) =
      if step.isAnswered = true then some step else lastAnswered? steps :=
  find?_reverse_concat ..

end Workspace

namespace Session

variable {nextId : ChainId} {session before : Session} {node : NodeId}

/-- What was suggested for the node when it was asked about is still right: the node is admitted as
it was then, the same would be suggested again, any link can be chosen, and nothing can be
committed. -/
structure Current (session : Session) (node : NodeId) (asked : Session)
    (suggestions : List Link) : Prop where
  admission : ∃ admission, admission ≠ .refused ∧ asked.admission node = .ok admission ∧
    session.admission node = .ok admission
  request : ∀ ticket, ∃ step, session.request node ticket = .ok step ∧
    step.answer = some suggestions
  choose : ∀ link, ∃ step, session.choose node link = .ok step ∧ step.answer = true
  commit : ∃ step, session.commit = .ok step ∧ step.answer = false

/-- What was suggested is current while a list is shown and nothing that it depends on changes. -/
theorem Settled.current (settled : session.Settled nextId) {ticket ticket' : Ticket}
    (shown : session.chooser = some ticket') (undisturbed : before.Undisturbed session)
    {step : Transition (Option (List Link))} (asked : before.request node ticket = .ok step)
    {suggestions : List Link} (given : step.answer = some suggestions) :
    session.Current node before suggestions := by
  rcases of_request asked with rfl | ⟨⟨admission, decided, admitted⟩, ⟨chain, listed⟩, -⟩
  · cases given
  have alike := undisturbed.alike listed
  have again := alike.admission_eq.trans decided
  constructor
  case admission => exact ⟨admission, admitted, decided, again⟩
  case request =>
    intro new
    obtain ⟨later, done, -⟩ := settled.exists_request node new
    have same := alike.answer_eq ticket new
    rw [asked, done] at same
    exact ⟨later, done, (Except.ok.inj same).trans given⟩
  case choose =>
    intro link
    obtain ⟨admission', decided', admits⟩ := settled.exists_admits node
    cases again.symm.trans decided'
    obtain ⟨chosen, chose, -, accepted, -⟩ :=
      settled.exists_choose_of_admits again admits admitted link
    exact ⟨chosen, chose, accepted⟩
  case commit => exact ⟨_, settled.commit_eq_stay shown, rfl⟩

end Session

namespace Workspace

variable {workspace : Workspace}

/-- The list that is shown, if there is one, answers the last request that was answered, and what it
depends on is as it was. -/
def Fresh (steps : List Step) (workspace : Workspace) : Prop :=
  ∀ ticket, workspace.session.chooser = some ticket →
    ∃ step node, lastAnswered? steps = some step ∧ step.operation = .request node ticket ∧
      step.before.perform step.operation = .ok step.outcome ∧
      step.before.session.Undisturbed workspace.session

/-- A step keeps the list fresh. -/
theorem Fresh.step {steps : List Step} (fresh : Fresh steps workspace)
    (settled : workspace.Settled) {operation : Operation} {outcome : Outcome}
    (done : workspace.perform operation = .ok outcome) :
    Fresh (steps ++ [⟨workspace, operation, outcome⟩]) outcome.workspace := by
  intro ticket shown
  rw [lastAnswered?_concat]
  cases settled.effect done with
  | asked node ticket' same answered session =>
      rw [if_pos answered]
      change outcome.workspace.session =
        { workspace.session with chooser := some ticket' } at session
      rw [session] at shown
      cases shown
      refine ⟨_, node, rfl, same, done, ?_⟩
      rw [session]
      exact ⟨rfl, rfl, fun _ _ listed => listed⟩
  | closed unanswered hidden => cases shown.symm.trans hidden
  | kept unanswered chooser undisturbed =>
      obtain ⟨step, node, last, same, asked, before⟩ := fresh ticket (chooser ▸ shown)
      rw [if_neg (Bool.eq_false_iff.1 unanswered)]
      exact ⟨step, node, last, same, asked, before.trans undisturbed⟩

/-- What a fresh list suggests is current. -/
theorem Fresh.current {steps : List Step} (fresh : Fresh steps workspace)
    (settled : workspace.Settled) {ticket : Ticket}
    (shown : workspace.session.chooser = some ticket) :
    ∃ step node, lastAnswered? steps = some step ∧ step.operation = .request node ticket ∧
      workspace.session.Current node step.before.session step.outcome.suggestions := by
  obtain ⟨⟨before, operation, outcome⟩, node, last, same, done, undisturbed⟩ := fresh ticket shown
  change operation = .request node ticket at same
  subst same
  change before.perform (.request node ticket) = .ok outcome at done
  obtain ⟨step, asked, rest⟩ := exists_of_bind_eq_ok done
  cases rest
  have answered : step.answer.isSome = true := List.find?_some (p := Step.isAnswered) last
  obtain ⟨suggestions, given⟩ := Option.isSome_iff_exists.1 answered
  refine ⟨_, node, last, rfl, ?_⟩
  have current := settled.session.current shown undisturbed asked given
  rwa [given]

/-- A run keeps the list fresh. -/
theorem Fresh.exists_run {steps : List Step} (fresh : Fresh steps workspace)
    (settled : workspace.Settled) (operations : List Operation) :
    ∃ later after, workspace.trace operations = .ok later ∧ workspace.run operations = .ok after ∧
      after.Settled ∧ Fresh (steps ++ later) after := by
  obtain ⟨later, after, traced, ran, -, last, fresh⟩ := settled.exists_trace Fresh
    (fun _ _ _ _ settled fresh done => fresh.step settled done) steps fresh operations
  exact ⟨later, after, traced, ran, last, fresh⟩

/-- Whatever is done from an empty workspace on can be done, and if a list of suggestions is shown
in the end, it answers the last request that was answered and is still right. -/
theorem exists_run_current (nextId : ChainId) (operations : List Operation) :
    ∃ steps workspace, ({ nextId } : Workspace).trace operations = .ok steps ∧
      ({ nextId } : Workspace).run operations = .ok workspace ∧
      ∀ ticket, workspace.session.chooser = some ticket →
        ∃ step node, lastAnswered? steps = some step ∧ step.operation = .request node ticket ∧
          workspace.session.Current node step.before.session step.outcome.suggestions := by
  have hidden : Fresh [] { nextId } := fun ticket shown => nomatch shown
  obtain ⟨steps, workspace, traced, ran, settled, fresh⟩ :=
    hidden.exists_run (settled_empty nextId) operations
  exact ⟨steps, workspace, traced, ran, fun ticket => fresh.current settled⟩

/-- The list for the left factor stays open through requests and a commit that are refused, and what
it suggested is still right. -/
theorem exists_run_current_refused :
    let a : Expr := .named "a"
    let b : Expr := .named "b"
    let c : Expr := .named "c"
    let theory : Theory := ⟨[.simple "order" [] ⟨a, .less, c⟩]⟩
    let operations : List Operation := [.begin theory (a * b), .choose ⟨0, 2⟩ ⟨.equal, c⟩,
      .request ⟨0, 1⟩ 7, .request ⟨0, 2⟩ 8, .request ⟨1, 0⟩ 9, .commit, .begin {} a]
    ∃ steps workspace step, trace {} operations = .ok steps ∧ run {} operations = .ok workspace ∧
      steps.map (·.outcome.accepted) = [true, true, true, false, false, false, true] ∧
      workspace.session.chooser = some 7 ∧ lastAnswered? steps = some step ∧
      step.operation = .request ⟨0, 1⟩ 7 ∧ step.outcome.suggestions = [⟨.less, c⟩] ∧
      workspace.session.Current ⟨0, 1⟩ step.before.session step.outcome.suggestions := by
  intro a b c theory operations
  have came : (trace {} operations).map (fun steps => (steps.map (·.outcome.accepted),
      (lastAnswered? steps).map fun step => (step.operation, step.outcome.suggestions))) =
        .ok ([true, true, true, false, false, false, true],
          some (.request ⟨0, 1⟩ 7, [⟨.less, c⟩])) :=
    rfl
  have shown : (run {} operations).map (·.session.chooser) = .ok (some 7) := rfl
  obtain ⟨steps, workspace, traced, ran, current⟩ := exists_run_current 0 operations
  rw [traced] at came
  rw [ran] at shown
  obtain ⟨answers, request⟩ := Prod.mk.inj (Except.ok.inj came)
  obtain ⟨step, node, last, asked, current⟩ := current 7 (Except.ok.inj shown)
  rw [last, Option.map_some, asked] at request
  obtain ⟨same, suggested⟩ := Prod.mk.inj (Option.some.inj request)
  cases same
  exact ⟨steps, workspace, step, traced, ran, answers, Except.ok.inj shown, last, asked, suggested,
    current⟩

end Workspace

end Calculation
