import Calculation.Proofs.Chooser

/-!
When a caller is told that a list of suggestions has to be closed.

A list is closed by the session when another one is shown and when the user goes back, and then its
caller is told so, by the ticket of the request.  If something is chosen from the list, or the
caller has closed it and says so, there is nothing to tell.  Whatever else is done leaves the list
shown, and so does all that is refused.

Requests are known by their indices among the steps of a run, so that the statements hold whichever
tickets the callers use.  A request that has a ticket of its own is told at most once.

* `Workspace.Settled.handles`: what one operation does to the list, and what it tells of it.
* `Workspace.Accounts.step`: what a step tells, after any that are accounted for.
* `Workspace.exists_run_accounts`: who is told when, in every run.
-/

namespace Calculation

namespace Workspace

variable {workspace : Workspace}

/-! ## One operation -/

/-- The ticket of the request that is made. -/
def Operation.ticket? : Operation → Option Ticket
  | .request _ ticket => some ticket
  | _ => none

/-- The list that is shown is closed by the step, and its caller is to be told. -/
def Step.isClosing (step : Step) : Bool :=
  match step.operation with
  | .request _ _ => step.outcome.accepted
  | .escape => true
  | _ => false

/-- The list that is shown counts as closed by its caller. -/
def Step.isDropping (step : Step) : Bool :=
  match step.operation with
  | .choose _ _ => step.outcome.accepted
  | .dismiss => true
  | _ => false

theorem Step.isClosing_of_isAnswered {step : Step} (answered : step.isAnswered = true) :
    step.isClosing = true := by
  obtain ⟨before, operation, outcome⟩ := step
  cases operation <;> first | exact answered | cases answered

theorem Step.exists_ticket_of_isAnswered {step : Step} (answered : step.isAnswered = true) :
    ∃ ticket, step.operation.ticket? = some ticket := by
  obtain ⟨before, operation, outcome⟩ := step
  cases operation <;> first | exact ⟨_, rfl⟩ | cases answered

/-- What a step does to the list that is shown, and what it tells of it. -/
structure Step.Handles (step : Step) : Prop where
  shown : step.outcome.workspace.session.chooser =
    if step.isAnswered then step.operation.ticket?
    else if step.isClosing ∨ step.isDropping then none
    else step.before.session.chooser
  closed : step.outcome.closed = if step.isClosing then step.before.session.chooser else none

end Workspace

namespace Session

variable {session : Session} {node : NodeId}

/-- Nobody is told of a list when something is chosen. -/
theorem closed_of_choose {link : Link} {step : Transition Bool}
    (done : session.choose node link = .ok step) : step.closed = none := by
  rcases of_choose done with rfl | ⟨-, active, ready, cleared, placed, -, -, -, -, inserted, rfl⟩
  · rfl
  · rcases of_place inserted with rfl | ⟨chain, found, later, -, -, -, rfl⟩
    · rfl
    · rfl

end Session

namespace Workspace

variable {workspace : Workspace}

theorem Settled.handles (settled : workspace.Settled) {operation : Operation} {outcome : Outcome}
    (done : workspace.perform operation = .ok outcome) :
    Step.Handles ⟨workspace, operation, outcome⟩ := by
  cases settled.course done with
  | begun theory beginning new => exact ⟨rfl, rfl⟩
  | adopted chain new blank => exact ⟨rfl, rfl⟩
  | aside aside session changes closed =>
      have chooser := congrArg Session.chooser session
      cases operation <;> first | exact ⟨chooser, closed⟩ | cases aside
  | request node ticket step asked =>
      rcases Session.of_request asked with rfl | ⟨-, -, links, rfl⟩
      · exact ⟨rfl, rfl⟩
      · exact ⟨rfl, rfl⟩
  | choose node link step chose =>
      refine ⟨(settled.session.chooser_of_choose chose).trans ?_, Session.closed_of_choose chose⟩
      simp [Step.isAnswered, Step.isClosing, Step.isDropping, follow]
  | dismiss => exact ⟨rfl, rfl⟩
  | escape step escaped =>
      refine ⟨Session.chooser_of_escape escaped, ?_⟩
      rcases Session.of_escape escaped with
        ⟨ticket, shown, rfl⟩ | ⟨hidden, rfl | ⟨side, cleared, emptied, rfl⟩⟩
      · exact shown.symm
      · exact hidden.symm
      · exact hidden.symm
  | commit step committed =>
      refine ⟨Session.chooser_of_commit committed, ?_⟩
      rcases Session.of_commit committed with rfl | ⟨chain, link, cleared, -, -, rfl⟩
      · rfl
      · rfl

/-! ## Runs -/

/-- The ticket of the request that is made by the step with an index. -/
def ticketAt? (steps : List Step) (i : Nat) : Option Ticket :=
  (steps[i]?).bind fun step => step.operation.ticket?

/-- The list that the step with index `i` shows is shown until the step with index `j`. -/
structure ShownUntil (steps : List Step) (i j : Nat) : Prop where
  before : i < j
  answered : ∃ step, steps[i]? = some step ∧ step.isAnswered = true
  kept : ∀ k step, i < k → k < j → steps[k]? = some step →
    step.isClosing = false ∧ step.isDropping = false

section

variable {steps : List Step} {i j : Nat}

theorem shownUntil_append (le : j ≤ steps.length) (more : List Step) :
    ShownUntil (steps ++ more) i j ↔ ShownUntil steps i j := by
  have same : ∀ k, k < j → (steps ++ more)[k]? = steps[k]? := fun k before =>
    List.getElem?_append_left (Nat.lt_of_lt_of_le before le)
  constructor
  · rintro ⟨before, answered, kept⟩
    exact ⟨before, same i before ▸ answered, fun k step after until' here =>
      kept k step after until' ((same k until').trans here)⟩
  · rintro ⟨before, answered, kept⟩
    exact ⟨before, (same i before).symm ▸ answered, fun k step after until' here =>
      kept k step after until' ((same k until').symm.trans here)⟩

/-- What is shown after a step was shown by it, or before it and has been left alone. -/
theorem shownUntil_concat (steps : List Step) (step : Step) (i : Nat) :
    ShownUntil (steps ++ [step]) i (steps.length + 1) ↔
      (i = steps.length ∧ step.isAnswered = true) ∨
        ShownUntil steps i steps.length ∧ step.isClosing = false ∧ step.isDropping = false := by
  have last : (steps ++ [step])[steps.length]? = some step := List.getElem?_concat_length
  constructor
  · rintro ⟨before, ⟨asked, here, answered⟩, kept⟩
    rcases Nat.eq_or_lt_of_le (Nat.le_of_lt_succ before) with rfl | earlier
    · cases here.symm.trans last
      exact .inl ⟨rfl, answered⟩
    · refine .inr ⟨(shownUntil_append (Nat.le_refl _) [step]).1 ⟨earlier, ⟨asked, here, answered⟩,
        fun k between after until' => ?_⟩, kept _ step earlier (Nat.lt_succ_self _) last⟩
      exact kept k between after (Nat.lt_succ_of_lt until')
  · rintro (⟨rfl, answered⟩ | ⟨shown, left⟩)
    · exact ⟨Nat.lt_succ_self _, ⟨step, last, answered⟩, fun k between after until' => by omega⟩
    · obtain ⟨before, answered, kept⟩ := (shownUntil_append (Nat.le_refl _) [step]).2 shown
      refine ⟨Nat.lt_succ_of_lt before, answered, fun k between after until' here => ?_⟩
      rcases Nat.eq_or_lt_of_le (Nat.le_of_lt_succ until') with rfl | earlier
      · cases here.symm.trans last
        exact left
      · exact kept k between after earlier here

/-- One list is shown at a time. -/
theorem ShownUntil.unique {i' : Nat} (shown : ShownUntil steps i j)
    (shown' : ShownUntil steps i' j) : i = i' := by
  have notBefore : ∀ i i', ShownUntil steps i j → ShownUntil steps i' j → ¬ i < i' := by
    intro i i' shown shown' earlier
    obtain ⟨step, here, answered⟩ := shown'.answered
    have closing := Step.isClosing_of_isAnswered answered
    rw [(shown.kept i' step earlier shown'.before here).1] at closing
    cases closing
  exact Nat.le_antisymm (Nat.not_lt.1 (notBefore i' i shown' shown))
    (Nat.not_lt.1 (notBefore i i' shown shown'))

end

/-! ## What is told -/

section

variable {steps : List Step} {i j : Nat} {ticket : Ticket}

theorem ticketAt?_append (inside : i < steps.length) (more : List Step) :
    ticketAt? (steps ++ more) i = ticketAt? steps i := by
  rw [ticketAt?, ticketAt?, List.getElem?_append_left inside]

theorem ticketAt?_concat_length (steps : List Step) (step : Step) :
    ticketAt? (steps ++ [step]) steps.length = step.operation.ticket? := by
  rw [ticketAt?, List.getElem?_concat_length, Option.bind_some]

/-- Only requests show lists. -/
theorem ShownUntil.exists_ticket (shown : ShownUntil steps i j) :
    ∃ ticket, ticketAt? steps i = some ticket := by
  obtain ⟨step, here, answered⟩ := shown.answered
  obtain ⟨ticket, made⟩ := Step.exists_ticket_of_isAnswered answered
  exact ⟨ticket, by rw [ticketAt?, here, Option.bind_some, made]⟩

/-- The list that is shown before the step with index `j` is that of a request with the ticket. -/
def ShownAt (steps : List Step) (j : Nat) (ticket : Ticket) : Prop :=
  ∃ i, ShownUntil steps i j ∧ ticketAt? steps i = some ticket

theorem shownAt_append (le : j ≤ steps.length) (more : List Step) :
    ShownAt (steps ++ more) j ticket ↔ ShownAt steps j ticket := by
  refine exists_congr fun i => ?_
  rw [shownUntil_append le]
  refine and_congr_right fun shown => ?_
  rw [ticketAt?_append (Nat.lt_of_lt_of_le shown.before le)]

/-- A step shows the list of its own request, or leaves the one that was shown before it. -/
theorem shownAt_concat (steps : List Step) (step : Step) (ticket : Ticket) :
    ShownAt (steps ++ [step]) (steps.length + 1) ticket ↔
      (step.isAnswered = true ∧ step.operation.ticket? = some ticket) ∨
        ShownAt steps steps.length ticket ∧ step.isClosing = false ∧ step.isDropping = false := by
  constructor
  · rintro ⟨i, shown, asked⟩
    rcases (shownUntil_concat steps step i).1 shown with ⟨rfl, answered⟩ | ⟨shown, left⟩
    · exact .inl ⟨answered, (ticketAt?_concat_length steps step).symm.trans asked⟩
    · exact .inr ⟨⟨i, shown, (ticketAt?_append shown.before [step]).symm.trans asked⟩, left⟩
  · rintro (⟨answered, asked⟩ | ⟨⟨i, shown, asked⟩, left⟩)
    · exact ⟨steps.length, (shownUntil_concat ..).2 (.inl ⟨rfl, answered⟩),
        (ticketAt?_concat_length steps step).trans asked⟩
    · exact ⟨i, (shownUntil_concat ..).2 (.inr ⟨shown, left⟩),
        (ticketAt?_append shown.before [step]).trans asked⟩

end

/-- What is told of lists in a run, and what is shown in the end, is accounted for by the steps. -/
structure Accounts (steps : List Step) (workspace : Workspace) : Prop where
  /-- A step that closes a list tells the ticket of the request whose list was shown until then, and
  no other step tells a ticket. -/
  closed : ∀ j step ticket, steps[j]? = some step →
    (step.outcome.closed = some ticket ↔ step.isClosing = true ∧ ShownAt steps j ticket)
  /-- The list that is shown is the one of the last request that was answered, if it was neither
  closed nor dropped after that. -/
  shown : ∀ ticket,
    workspace.session.chooser = some ticket ↔ ShownAt steps steps.length ticket

namespace Accounts

variable {steps : List Step}

theorem empty (nextId : ChainId) : Accounts [] { nextId } where
  closed _ _ _ here := nomatch here
  shown ticket := by
    constructor
    · intro none
      cases none
    · rintro ⟨i, shown, -⟩
      exact absurd shown.before (Nat.not_lt_zero i)

/-- The list that is shown after a step. -/
theorem shown_concat (accounts : Accounts steps workspace) {step : Step}
    (before : step.before = workspace) (handles : step.Handles) (ticket : Ticket) :
    step.outcome.workspace.session.chooser = some ticket ↔
      ShownAt (steps ++ [step]) (steps.length + 1) ticket := by
  rw [handles.shown, before, shownAt_concat, ← accounts.shown]
  cases answered : step.isAnswered with
  | true =>
      have closing := Step.isClosing_of_isAnswered answered
      simp [closing]
  | false => cases step.isClosing <;> cases step.isDropping <;> simp

theorem step (accounts : Accounts steps workspace) {step : Step}
    (before : step.before = workspace) (handles : step.Handles) :
    Accounts (steps ++ [step]) step.outcome.workspace where
  closed j told ticket here := by
    rcases Nat.lt_trichotomy j steps.length with earlier | rfl | outside
    · rw [List.getElem?_append_left earlier] at here
      rw [shownAt_append (Nat.le_of_lt earlier)]
      exact accounts.closed j told ticket here
    · rw [List.getElem?_concat_length] at here
      cases here
      rw [handles.closed, before, shownAt_append (Nat.le_refl _), ← accounts.shown]
      cases step.isClosing <;> simp
    · rw [List.getElem?_eq_none] at here
      · cases here
      · rw [List.length_append]
        exact outside
  shown ticket := by
    rw [List.length_append, List.length_singleton]
    exact accounts.shown_concat before handles ticket

/-- A list is shown if and only if it is the one of a request that was answered. -/
theorem isSome_iff (accounts : Accounts steps workspace) :
    workspace.session.chooser.isSome = true ↔ ∃ i, ShownUntil steps i steps.length := by
  rw [Option.isSome_iff_exists, exists_congr accounts.shown]
  constructor
  · rintro ⟨ticket, i, shown, -⟩
    exact ⟨i, shown⟩
  · rintro ⟨i, shown⟩
    obtain ⟨ticket, asked⟩ := shown.exists_ticket
    exact ⟨ticket, i, shown, asked⟩

end Accounts

/-! ## Requests that are told apart -/

/-- The step with index `j` tells the ticket of the request that the step with index `i` makes. -/
def Tells (steps : List Step) (i j : Nat) : Prop :=
  ∃ ticket step, ticketAt? steps i = some ticket ∧ steps[j]? = some step ∧
    step.outcome.closed = some ticket

/-- What is told in a run whose requests have tickets of their own. -/
structure TellsOnce (steps : List Step) : Prop where
  /-- A request is told by the first step after it that closes lists, if its list has not been
  dropped until then, and by no other. -/
  first : ∀ i j, Tells steps i j ↔
    ShownUntil steps i j ∧ ∃ step, steps[j]? = some step ∧ step.isClosing = true
  /-- A request that is refused is never told. -/
  answered : ∀ i j, Tells steps i j → ∃ step, steps[i]? = some step ∧ step.isAnswered = true
  once : ∀ i j j', Tells steps i j → Tells steps i j' → j = j'
  single : ∀ i i' j, Tells steps i j → Tells steps i' j → i = i'

/-- Requests with tickets of their own are told apart by them. -/
theorem ticketAt?_inj {steps : List Step} {operations : List Operation}
    (same : steps.map Step.operation = operations)
    (distinct : (operations.filterMap Operation.ticket?).Nodup) {i i' : Nat} {ticket : Ticket}
    (here : ticketAt? steps i = some ticket) (here' : ticketAt? steps i' = some ticket) :
    i = i' := by
  have apart := List.pairwise_iff_getElem.1 (List.pairwise_filterMap.1 distinct)
  have asked : ∀ i, ticketAt? steps i = some ticket →
      ∃ inside : i < operations.length, operations[i].ticket? = some ticket := by
    intro i here
    obtain ⟨step, found, made⟩ := Option.bind_eq_some_iff.1 here
    obtain ⟨inside, rfl⟩ := List.getElem?_eq_some_iff.1 found
    subst same
    exact ⟨by simpa using inside, by simpa using made⟩
  obtain ⟨inside, made⟩ := asked i here
  obtain ⟨inside', made'⟩ := asked i' here'
  rcases Nat.lt_trichotomy i i' with before | equal | after
  · exact absurd rfl (apart i i' inside inside' before ticket made ticket made')
  · exact equal
  · exact absurd rfl (apart i' i inside' inside after ticket made' ticket made)

/-- A list is shown until one step at most that closes lists. -/
theorem ShownUntil.not_closing_before {steps : List Step} {i j j' : Nat} {step : Step}
    (shown : ShownUntil steps i j) (shown' : ShownUntil steps i j') (here : steps[j]? = some step)
    (closing : step.isClosing = true) : ¬ j < j' := fun earlier =>
  Bool.false_ne_true ((shown'.kept j step shown.before earlier here).1.symm.trans closing)

theorem Accounts.tellsOnce {steps : List Step} (accounts : Accounts steps workspace)
    {operations : List Operation} (same : steps.map Step.operation = operations)
    (distinct : (operations.filterMap Operation.ticket?).Nodup) : TellsOnce steps := by
  have first : ∀ i j, Tells steps i j ↔
      ShownUntil steps i j ∧ ∃ step, steps[j]? = some step ∧ step.isClosing = true := by
    intro i j
    constructor
    · rintro ⟨ticket, step, asked, here, told⟩
      obtain ⟨closing, i', shown, asked'⟩ := (accounts.closed j step ticket here).1 told
      cases ticketAt?_inj same distinct asked asked'
      exact ⟨shown, step, here, closing⟩
    · rintro ⟨shown, step, here, closing⟩
      obtain ⟨ticket, asked⟩ := shown.exists_ticket
      exact ⟨ticket, step, asked, here,
        (accounts.closed j step ticket here).2 ⟨closing, i, shown, asked⟩⟩
  constructor
  case first => exact first
  case answered => exact fun i j tells => ((first i j).1 tells).1.answered
  case once =>
    intro i j j' tells tells'
    obtain ⟨shown, step, here, closing⟩ := (first i j).1 tells
    obtain ⟨shown', step', here', closing'⟩ := (first i j').1 tells'
    exact Nat.le_antisymm (Nat.not_lt.1 (shown'.not_closing_before shown here' closing'))
      (Nat.not_lt.1 (shown.not_closing_before shown' here closing))
  case single =>
    intro i i' j tells tells'
    exact ((first i j).1 tells).1.unique ((first i' j).1 tells').1

/-- In every run a step tells the ticket of the request whose list it closes, and no step tells
anything else.  A list is shown in the end if and only if the last request that was answered has
been followed neither by a step that closes lists nor by one that drops them.  If every request has
a ticket of its own, each is told once at most: never if it was refused, and otherwise by the first
step after it that closes lists, unless its list has been dropped before. -/
theorem exists_run_accounts (nextId : ChainId) (operations : List Operation) :
    ∃ steps workspace, trace { nextId } operations = .ok steps ∧
      run { nextId } operations = .ok workspace ∧ steps.map Step.operation = operations ∧
      Accounts steps workspace ∧
      (workspace.session.chooser.isSome = true ↔ ∃ i, ShownUntil steps i steps.length) ∧
      ((operations.filterMap Operation.ticket?).Nodup → TellsOnce steps) := by
  obtain ⟨steps, workspace, traced, ran, same, -, accounts⟩ :=
    (settled_empty nextId).exists_trace Accounts
      (fun _ _ _ _ settled accounts done => accounts.step rfl (settled.handles done)) []
      (.empty nextId) operations
  rw [List.nil_append] at accounts
  exact ⟨steps, workspace, traced, ran, same, accounts, accounts.isSome_iff,
    accounts.tellsOnce same⟩

/-- The second request is refused, and the list of the third is dropped, so neither is ever told. -/
theorem exists_run_accounts_dismissed :
    let operations : List Operation :=
      [.begin {} (.named "a" * .named "b"), .request ⟨0, 1⟩ 5, .request ⟨7, 0⟩ 6, .request ⟨0, 2⟩ 7,
        .dismiss, .request ⟨0, 1⟩ 8, .escape, .escape]
    ∃ steps, trace { nextId := 0 } operations = .ok steps ∧ TellsOnce steps ∧
      steps.map (fun step => step.outcome.closed) =
        [none, none, none, some 5, none, none, some 8, none] := by
  intro operations
  obtain ⟨steps, workspace, traced, -, -, -, -, once⟩ := exists_run_accounts 0 operations
  have told : (trace { nextId := 0 } operations).map
      (fun steps => steps.map fun step => step.outcome.closed) =
      .ok [none, none, none, some 5, none, none, some 8, none] := rfl
  rw [traced] at told
  exact ⟨steps, traced, once (by decide), Except.ok.inj told⟩

end Workspace

end Calculation
