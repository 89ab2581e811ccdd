import Calculation.Console.Execution
import Calculation.Proofs.Changes

/-!
What a command line does to the list of suggestions.

There are two such lists, the offer of the console and the one that the session knows to be shown.
Neither is looked at by all the commands that change the other: `esc` only goes to the session, and
`choose` only looks at the offer.  What is claimed of both is therefore shown for every command by
itself (`Console.Handled`), and the commands are opened here and nowhere else.

The changes that a command makes are shown after it, so none of them wait for the next line if they
can be shown.  They can, as nodes and chains that are listed as changed are in the document
(`Workspace.Settled.knows`).

* `Session.Settled.annotates`: what is different after a choice.
* `Console.Handled.exists_withChanges`: no change is left to be shown.
* `Console.Ready.exists_perform`: every command.
-/

namespace Calculation

/-! ## Choosing -/

namespace Session

variable {nextId : ChainId} {session : Session} {node : NodeId} {link : Link}

/-- The link has been chosen for the node.  The other choices are as before, or have been taken back
if the node took the place of its operands, and nothing else in the document is different. -/
structure Annotates (before : Session) (node : NodeId) (link : Link) (after : Session) : Prop where
  chosen : ∃ found, before.document.node? node = some found ∧
    after.document.choice? node = some ⟨found.side, link⟩
  others : ∃ admission, before.admission node = .ok admission ∧ admission ≠ .refused ∧
    ∀ other ≠ node, after.document.choice? other =
      if admission = .replacing then none else before.document.choice? other
  outline : after.document.outline = before.document.outline

/-- Only nodes of the document are admitted. -/
theorem Tidy.exists_known (tidy : session.Tidy nextId) {admission : Admission}
    (decided : session.admission node = .ok admission) (admitted : admission ≠ .refused) :
    ∃ found, session.document.node? node = some found := by
  obtain ⟨admission', decided', admits⟩ := tidy.exists_admits node
  cases decided.symm.trans decided'
  cases admits with
  | refused => exact absurd rfl admitted
  | alone known => exact ⟨_, known⟩
  | beside known => exact ⟨_, known⟩
  | above known => exact ⟨_, known⟩

/-- What a choice that is not refused does. -/
theorem Settled.annotates (settled : session.Settled nextId) {step : Transition Bool}
    (done : session.choose node link = .ok step) (accepted : step.answer = true) :
    session.Annotates node link step.session := by
  have outline := outline_of_choose done
  rcases of_choose done with rfl | ⟨admission, active, ready, cleared, placed, decided, admitted,
    activated, emptied, inserted, rfl⟩
  · cases accepted
  rcases of_place inserted with rfl | ⟨chain, found, later, listed, asked, annotated, rfl⟩
  · cases accepted
  have before : active.document = session.document := document_of_activate activated
  have tidy := settled.of_activate activated
  obtain ⟨intact, same, kept⟩ : ready.document.Intact nextId ∧
      ready.document.outline = session.document.outline ∧
      ∀ other, ready.document.choice? other =
        if admission = .replacing then none else session.document.choice? other := by
    rcases emptied with ⟨replacing, emptied⟩ | ⟨beside, rfl, -⟩
    · obtain ⟨bare, emptied', tidyReady, shape⟩ := tidy.exists_clearBoth
      have outline := outline_of_clearBoth emptied
      cases emptied.symm.trans emptied'
      refine ⟨tidyReady.intact, before ▸ outline, fun other => ?_⟩
      rw [if_pos replacing, Document.choice?, shape]
      cases active.document.node? other <;> rfl
    · rw [← before]
      exact ⟨tidy.intact, rfl, fun other => (if_neg beside).symm⟩
  have known : ready.document.node? node = some found := by
    have listed : ready.document.find? node.chain = some chain := listed
    rw [Document.node?_eq, listed]
    exact Chain.getElem?_of_node (Document.mem_of_find? listed).2 asked
  obtain ⟨was, known', bare⟩ := (Document.Grows.of_outline_eq same.symm).exists_node known
  have side : was.side = found.side := (congrArg Node.side bare :)
  have changed := intact.choice?_of_annotate known annotated
  constructor
  case chosen =>
    refine ⟨was, known', ?_⟩
    rw [side]
    exact (changed node).trans (if_pos rfl)
  case others =>
    refine ⟨admission, decided, admitted, fun other different => ?_⟩
    exact ((changed other).trans (if_neg different)).trans (kept other)
  case outline => exact outline

end Session

/-! ## Changes that can be shown -/

/-- What the change is about is in the document. -/
def Document.Knows (document : Document) : Change → Prop
  | .node node => ∃ found, document.node? node = some found
  | .chain id => ∃ chain, document.find? id = some chain

/-- What an operation lists as changed is in the document after it. -/
theorem Workspace.Settled.knows {workspace : Workspace} (settled : workspace.Settled)
    {operation : Operation} {outcome : Outcome}
    (done : workspace.perform operation = .ok outcome) :
    ∀ change ∈ outcome.changes, outcome.workspace.session.document.Knows change := by
  intro change listed
  obtain ⟨reports, -⟩ := settled.reported done
  cases change with
  | node node =>
      cases known : outcome.workspace.session.document.node? node with
      | some found => exact ⟨found, known⟩
      | none =>
          -- a node that is not there now was not there before, and has no choice that could differ
          have absent : workspace.session.document.node? node = none := by
            cases old : workspace.session.document.node? node with
            | none => rfl
            | some found =>
                obtain ⟨same, known', -⟩ := (settled.grows_perform done).exists_node old
                cases known.symm.trans known'
          have counted := reports.nodes node
          rw [Document.choice?, Document.choice?] at counted
          exact absurd listed (List.count_eq_zero.1
            (counted.trans (if_pos (by rw [known, absent]))))
  | chain id =>
      cases old : workspace.session.document.find? id with
      | none => exact absurd listed (List.count_eq_zero.1 (reports.new id old))
      | some chain =>
          obtain ⟨grown, added, listed', -⟩ := reports.chains id chain old
          exact ⟨grown, listed'⟩

namespace Console

open Command (Line NodeReference)

variable {console : Console} {line : Line} {command : Command} {answer : Answer}

theorem mem_foldl_insertChange {changes pending : List Change} {change : Change}
    (mem : change ∈ changes.foldl insertChange pending) : change ∈ pending ∨ change ∈ changes := by
  induction changes generalizing pending with
  | nil => exact .inl mem
  | cons first rest ih =>
      rcases ih mem with old | later
      · unfold insertChange at old
        split at old
        · exact .inl old
        · rcases List.mem_append.1 old with old | new
          · exact .inl old
          · cases List.mem_singleton.1 new
            exact .inr List.mem_cons_self
      · exact .inr (List.mem_cons_of_mem _ later)

/-- A change of something in the document has lines to be shown by. -/
theorem exists_changeLines {change : Change} (known : console.document.Knows change) :
    ∃ lines, console.changeLines change = .ok lines := by
  cases change with
  | node node =>
      obtain ⟨found, known⟩ := known
      exact ⟨_, by rw [changeLines, known]⟩
  | chain id =>
      obtain ⟨chain, listed⟩ := known
      exact ⟨_, by rw [changeLines, listed]⟩

/-! ## What commands do -/

/-- A console between lines: it offers suggestions if and only if its session shows a list, and no
change waits to be shown. -/
structure Ready (console : Console) : Prop where
  settled : console.workspace.Settled
  shown : console.offer.isSome = console.session.chooser.isSome
  pending : console.pending = []

/-- The command has printed a list of suggestions. -/
def isListing : Command → Except Diagnostic (List String) → Bool
  | .select _, .ok _ => true
  | _, _ => false

theorem isListing_error (command : Command) (diagnostic : Diagnostic) :
    isListing command (.error diagnostic) = false := by
  cases command <;> rfl

theorem isListing_map (command : Command) (outcome : Except Diagnostic (List String))
    (more : List String → List String) :
    isListing command (outcome.map more) = isListing command outcome := by
  cases command <;> cases outcome <;> rfl

/-- What a command does to the list: it leaves the list and all that it depends on, or leaves none,
or prints one for a node that is selected. -/
inductive Effect (console : Console) (command : Command) (answer : Answer) : Prop where
  | kept (unlisted : isListing command answer.outcome = false)
      (offer : answer.console.offer = console.offer)
      (chooser : answer.console.session.chooser = console.session.chooser)
      (undisturbed : console.session.Undisturbed answer.console.session)
  | closed (unlisted : isListing command answer.outcome = false)
      (offer : answer.console.offer = none) (chooser : answer.console.session.chooser = none)
  | listed (reference : NodeReference) (node : NodeId) (links : List Link) (found : Node)
      (step : Transition (Option (List Link))) (select : command = .select reference)
      (resolved : console.resolve reference = .ok node)
      (asked : console.session.request node ticket = .ok step) (given : step.answer = some links)
      (known : console.document.node? node = some found)
      (offer : answer.console.offer = some ⟨node, links⟩)
      (printed : answer.outcome = .ok (console.offerLines ⟨node, links⟩ found.expr))
      (session : answer.console.session = { console.session with chooser := some ticket })
      (quiet : answer.console.pending = [])

/-- What a command comes to in a console between lines, before its changes are shown. -/
structure Handled (console : Console) (command : Command) (answer : Answer) : Prop where
  settled : answer.console.workspace.Settled
  known : ∀ change ∈ answer.console.pending, answer.console.document.Knows change
  /-- A command that is refused has changed nothing. -/
  refused : ∀ diagnostic, answer.outcome = .error diagnostic → answer.console.pending = []
  effect : Effect console command answer

/-- Whatever is suggested for the node of the offer can be chosen for it. -/
def Choosable (console : Console) : Prop :=
  ∀ offer link, console.offer = some offer → ∃ step,
    console.session.choose offer.node link = .ok step ∧ step.answer = true

/-- What it comes to that a suggestion is chosen by its number: the node of the offer is annotated
with it, if there is one with the number, and the node is never refused. -/
structure Chosen (console : Console) (index : Nat) (answer : Answer) : Prop where
  selectable : ∀ diagnostic label, answer.outcome = .error diagnostic →
    diagnostic.cause ≠ .notSelectable label
  annotates : ∀ offer link, console.offer = some offer → offer.links[index]? = some link →
    (∃ lines, answer.outcome = .ok lines) ∧
      console.session.Annotates offer.node link answer.console.session

/-- A number that is none of the list annotates nothing. -/
theorem Chosen.refuse {index : Nat} {span : Span} {cause : Diagnostic.Cause}
    (other : ∀ label, cause ≠ .notSelectable label)
    (outside : ∀ offer, console.offer = some offer → offer.links[index]? = none) :
    console.Chosen index (console.refuse span cause) where
  selectable diagnostic label failed := by
    cases failed
    exact other label
  annotates offer link shown listed := by cases (outside offer shown).symm.trans listed

namespace Ready

/-- A command that has no part in what its session does. -/
theorem aside (ready : console.Ready)
    (workspace : answer.console.workspace = console.workspace)
    (offer : answer.console.offer = console.offer)
    (pending : answer.console.pending = console.pending)
    (unlisted : isListing command answer.outcome = false) : console.Handled command answer where
  settled := workspace ▸ ready.settled
  known change mem := by
    rw [pending, ready.pending] at mem
    cases mem
  refused _ _ := pending.trans ready.pending
  effect := by
    have session : answer.console.session = console.session := congrArg Workspace.session workspace
    exact .kept unlisted offer (congrArg Session.chooser session) (session ▸ .refl _)

theorem refuse (ready : console.Ready) (command : Command) (span : Span)
    (cause : Diagnostic.Cause) : console.Handled command (console.refuse span cause) :=
  ready.aside rfl rfl rfl (isListing_error ..)

/-- A command that has an operation performed. -/
theorem performed (ready : console.Ready) {operation : Workspace.Operation}
    {outcome : Workspace.Outcome} (done : console.workspace.perform operation = .ok outcome)
    (workspace : answer.console.workspace = outcome.workspace)
    (pending : answer.console.pending = outcome.changes.foldl insertChange console.pending)
    (refused : ∀ diagnostic, answer.outcome = .error diagnostic → outcome.changes = [])
    (effect : Effect console command answer) : console.Handled command answer where
  settled := by
    obtain ⟨outcome', done', settled⟩ := ready.settled.exists_perform operation
    cases done.symm.trans done'
    exact workspace ▸ settled
  known change mem := by
    rw [pending, ready.pending] at mem
    rcases mem_foldl_insertChange mem with old | new
    · cases old
    · rw [document, Console.session, workspace]
      exact ready.settled.knows done change new
  refused diagnostic failed := by
    rw [pending, refused diagnostic failed]
    exact ready.pending
  effect := effect

theorem offer_eq_none (ready : console.Ready) (hidden : console.session.chooser = none) :
    console.offer = none := by
  have shown := ready.shown
  rw [hidden] at shown
  exact Option.not_isSome_iff_eq_none.1 (Bool.eq_false_iff.1 shown)

/-- After an operation that shows no list there is no offer, if there was none or if the session
says that it has closed the list. -/
theorem offer_follow (ready : console.Ready) {α : Type} {step : Transition α}
    (closed : console.session.chooser = none ∨ step.closed.isSome = true) :
    (console.follow step).offer = none := by
  change (if step.closed.isSome then none else console.offer) = none
  rcases closed with hidden | closed
  · rw [ready.offer_eq_none hidden, ite_self]
  · exact if_pos closed

/-! ## One command at a time -/

theorem begin (ready : console.Ready) (line : Line) (beginning : Expr) :
    console.Handled (.begin beginning) (console.begin line beginning) := by
  have done : console.workspace.perform (.begin console.theory beginning) = .ok
      { workspace := (console.workspace.begin console.theory beginning).2 } := rfl
  have new := ready.settled.session.intact.find?_eq_none
  unfold Console.begin
  split
  rename_i id workspace made
  have made : workspace = (console.workspace.begin console.theory beginning).2 :=
    (congrArg Prod.snd made).symm
  subst made
  dsimp only
  split <;>
    exact ready.performed done rfl rfl (fun _ _ => rfl)
      (.kept rfl rfl rfl (Workspace.undisturbed_insert new))

theorem showChain (ready : console.Ready) (line : Line) (number : Option Nat)
    (lines : Chain → List String) (other : ∀ outcome, isListing command outcome = false) :
    console.Handled command (console.showChain line number lines) := by
  unfold Console.showChain
  split
  · exact ready.aside rfl rfl rfl (other _)
  · exact ready.refuse command ..

theorem exists_select (ready : console.Ready) (line : Line) (reference : NodeReference) :
    ∃ answer, console.select line reference = .ok answer ∧
      console.Handled (.select reference) answer := by
  unfold Console.select
  cases resolved : console.resolve reference with
  | error cause => exact ⟨_, rfl, ready.refuse (.select reference) ..⟩
  | ok node =>
      obtain ⟨step, asked, -⟩ := ready.settled.session.exists_request node ticket
      have done := Workspace.perform_request asked
      have asked : console.session.request node ticket = .ok step := asked
      simp only [asked, bind, Except.bind]
      rcases Session.of_request asked with rfl | ⟨⟨admission, decided, admitted⟩, -, links, rfl⟩
      · exact ⟨_, rfl, ready.refuse (.select reference) ..⟩
      · obtain ⟨found, known⟩ := ready.settled.session.exists_known decided admitted
        have same : (console.follow {
            answer := some links
            session := { console.session with chooser := some ticket }
            closed := console.session.chooser }).document.node? node = some found := known
        simp only [same]
        cases links with
        | nil =>
            -- a list that is shown and closed at once might as well have been closed only
            refine ⟨_, rfl, ready.performed Workspace.perform_dismiss rfl rfl (fun _ _ => rfl)
              (.closed rfl (ready.offer_follow ?_) rfl)⟩
            cases console.session.chooser with
            | none => exact .inl rfl
            | some ticket => exact .inr rfl
        | cons link rest =>
            exact ⟨_, rfl, ready.performed done rfl rfl (fun _ _ => rfl)
              (.listed reference node _ found _ rfl resolved asked rfl known rfl rfl rfl
                ready.pending)⟩

/-- A number of the list is accepted if the session lets anything be chosen for the node of the
list. Any other number is refused, and not for the node. -/
theorem exists_choose (ready : console.Ready) (choosable : console.Choosable) (line : Line)
    (index : Nat) :
    ∃ answer, console.choose line index = .ok answer ∧
      console.Handled (.choose index) answer ∧ console.Chosen index answer := by
  unfold Console.choose
  cases shown : console.offer with
  | none =>
      refine ⟨_, rfl, ready.refuse (.choose index) .., .refuse (fun _ same => nomatch same) ?_⟩
      intro offer shown'
      cases shown.symm.trans shown'
  | some offer =>
      dsimp only
      cases listed : offer.links[index]? with
      | none =>
          refine ⟨_, rfl, ready.refuse (.choose index) .., .refuse (fun _ same => nomatch same) ?_⟩
          intro offer' shown'
          cases shown.symm.trans shown'
          exact listed
      | some link =>
          obtain ⟨step, chose, accepted⟩ := choosable offer link shown
          have done : console.workspace.perform (.choose offer.node link) =
            .ok (console.workspace.follow step) := Workspace.perform_choose chose
          have hidden := (ready.settled.session.chooser_of_choose chose).trans (if_pos accepted)
          simp only [chose, bind, Except.bind, accepted, if_true]
          refine ⟨_, rfl, ready.performed done rfl rfl (fun _ failed => nomatch failed)
            (.closed rfl rfl hidden), (fun _ _ failed => nomatch failed), ?_⟩
          intro offer' link' shown' listed'
          cases shown.symm.trans shown'
          cases listed.symm.trans listed'
          exact ⟨⟨_, rfl⟩, ready.settled.session.annotates chose accepted⟩

theorem dismiss (ready : console.Ready) : console.Handled .dismiss console.dismiss :=
  ready.performed Workspace.perform_dismiss rfl rfl (fun _ _ => rfl) (.closed rfl rfl rfl)

theorem exists_escape (ready : console.Ready) :
    ∃ answer, console.escape = .ok answer ∧ console.Handled .escape answer := by
  obtain ⟨step, escaped, -⟩ := ready.settled.session.exists_escape
  have done := Workspace.perform_escape escaped
  have escaped : console.session.escape = .ok step := escaped
  unfold Console.escape
  simp only [escaped, bind, Except.bind]
  refine ⟨_, rfl, ready.performed done rfl rfl (fun _ failed => nomatch failed)
    (.closed rfl (ready.offer_follow ?_) (Session.chooser_of_escape escaped))⟩
  rcases Session.of_escape escaped with ⟨ticket, -, rfl⟩ | ⟨hidden, -⟩
  · exact .inr rfl
  · exact .inl hidden

theorem exists_commit (ready : console.Ready) (line : Line) :
    ∃ answer, console.commit line = .ok answer ∧ console.Handled .commit answer := by
  obtain ⟨step, committed, -, stays⟩ := ready.settled.session.exists_commit
  have done := Workspace.perform_commit committed
  have committed : console.session.commit = .ok step := committed
  unfold Console.commit
  simp only [committed, bind, Except.bind]
  cases accepted : step.answer with
  | false =>
      cases stays accepted
      exact ⟨_, rfl, ready.refuse .commit ..⟩
  | true =>
      -- nothing can be committed while a list is shown
      have hidden : console.session.chooser = none := by
        cases shown : console.session.chooser with
        | none => rfl
        | some ticket =>
            cases committed.symm.trans (ready.settled.session.commit_eq_stay shown)
            cases accepted
      refine ⟨_, rfl, ready.performed done rfl rfl (fun _ failed => nomatch failed)
        (.closed rfl (ready.offer_follow (.inl hidden)) ?_)⟩
      exact (Session.chooser_of_commit committed).trans hidden

theorem exists_perform (ready : console.Ready) (choosable : console.Choosable) (line : Line)
    (command : Command) :
    ∃ answer, console.perform line command = .ok answer ∧ console.Handled command answer := by
  cases command with
  | begin beginning => exact ⟨_, rfl, ready.begin line beginning⟩
  | rule rule => exact ⟨_, rfl, ready.aside rfl rfl rfl rfl⟩
  | rules => exact ⟨_, rfl, ready.aside rfl rfl rfl rfl⟩
  | chain number => exact ⟨_, rfl, ready.showChain line number _ fun _ => rfl⟩
  | nodes number => exact ⟨_, rfl, ready.showChain line number _ fun _ => rfl⟩
  | select reference => exact ready.exists_select line reference
  | choose index =>
      obtain ⟨answer, done, handled, -⟩ := ready.exists_choose choosable line index
      exact ⟨answer, done, handled⟩
  | dismiss => exact ⟨_, rfl, ready.dismiss⟩
  | escape => exact ready.exists_escape
  | commit => exact ready.exists_commit line
  | help => exact ⟨_, rfl, ready.aside rfl rfl rfl rfl⟩
  | quit => exact ⟨_, rfl, ready.aside rfl rfl rfl rfl⟩

end Ready

-- The rule suggests the same in both directions, and each of its suggestions can be chosen.
example :
    let sum : Expr := .named "a" + .named "b"
    let swapped : Link := ⟨.equal, .named "b" + .named "a"⟩
    let swap : Rule := ⟨"swap", [{ name := "x" }, { name := "y" }],
      [⟨.named "x" + .named "y", .equal, .named "y" + .named "x"⟩]⟩
    let line := Line.ofString ""
    (do
      let begun ← ({ theory := ⟨[swap]⟩ } : Console).perform line (.begin sum)
      let listed ← begun.console.perform line (.select ⟨none, 0⟩)
      let chosen ← listed.console.perform line (.choose 1)
      pure (listed.console.offer, chosen.console.offer,
        chosen.console.document.choice? ⟨0, 0⟩)) =
      .ok (some ⟨⟨0, 0⟩, [swapped, swapped]⟩, none, some ⟨.left, swapped⟩) :=
  rfl

/-! ## Whole lines -/

namespace Handled

/-- All changes are shown after what the command has to say, and none are left. -/
theorem exists_withChanges (handled : console.Handled command answer) (line : Line) :
    ∃ changes,
      answer.console.pending.mapM ({ answer.console with pending := [] } : Console).changeLines =
        .ok changes ∧
      answer.withChanges line =
        ⟨answer.outcome.map (· ++ changes.flatten), { answer.console with pending := [] }⟩ := by
  obtain ⟨outcome, after⟩ := answer
  let shown : Console := { after with pending := [] }
  have answered : ∀ change ∈ after.pending,
      shown.changeLines change = .ok ((shown.changeLines change).toOption.getD []) := by
    intro change mem
    have known : shown.document.Knows change := handled.known change mem
    obtain ⟨lines, told⟩ := exists_changeLines known
    rw [told]
    rfl
  have all := mapM_eq_ok answered
  refine ⟨_, all, ?_⟩
  cases outcome with
  | ok lines =>
      unfold Answer.withChanges
      dsimp only
      rw [all]
      rfl
  | error diagnostic =>
      have quiet : after.pending = [] := handled.refused diagnostic rfl
      cases after
      cases quiet
      rfl

/-- The changes that are shown have no part in what becomes of the list. -/
theorem effect_withChanges (handled : console.Handled command answer) (line : Line) :
    Effect console command (answer.withChanges line) := by
  obtain ⟨changes, all, whole⟩ := handled.exists_withChanges line
  have listing : isListing command (answer.withChanges line).outcome =
      isListing command answer.outcome := by
    rw [whole]
    exact isListing_map ..
  rw [whole] at listing ⊢
  cases handled.effect with
  | kept unlisted offer chooser undisturbed =>
      exact .kept (listing.trans unlisted) offer chooser undisturbed
  | closed unlisted offer chooser => exact .closed (listing.trans unlisted) offer chooser
  | listed reference node links found step select resolved asked given known offer printed session
      quiet =>
      rw [quiet] at all
      cases all
      refine .listed reference node links found step select resolved asked given known offer ?_
        session rfl
      rw [printed]
      exact congrArg Except.ok (List.append_nil _)

/-- After a line the console is ready for the next. -/
theorem ready_withChanges (ready : console.Ready) (handled : console.Handled command answer)
    (line : Line) : (answer.withChanges line).console.Ready := by
  obtain ⟨changes, -, whole⟩ := handled.exists_withChanges line
  rw [whole]
  refine ⟨handled.settled, ?_, rfl⟩
  change answer.console.offer.isSome = answer.console.session.chooser.isSome
  cases handled.effect with
  | kept unlisted offer chooser => rw [offer, chooser, ready.shown]
  | closed unlisted offer chooser => rw [offer, chooser]; rfl
  | listed _ _ _ _ _ _ _ _ _ _ offer _ session => rw [offer, session]; rfl

end Handled

namespace Ready

/-- Every line is executed.  One that is no command changes nothing. -/
theorem exists_execute (ready : console.Ready) (choosable : console.Choosable) (source : String) :
    ∃ answer, console.execute source = .ok answer ∧ answer.console.Ready ∧
      ((∃ diagnostic, Command.parse source = .error diagnostic ∧ answer.console = console) ∨
        ∃ command, Command.parse source = .ok command ∧ Effect console command answer) := by
  unfold execute
  cases parsed : Command.parse source with
  | error diagnostic => exact ⟨_, rfl, ready, .inl ⟨diagnostic, rfl, rfl⟩⟩
  | ok command =>
      obtain ⟨answer, done, handled⟩ :=
        ready.exists_perform choosable (Line.ofString source) command
      simp only [done, bind, Except.bind]
      exact ⟨_, rfl, handled.ready_withChanges ready _,
        .inr ⟨command, rfl, handled.effect_withChanges _⟩⟩

/-- A line that chooses does so whatever is shown after it. -/
theorem exists_execute_choose (ready : console.Ready) (choosable : console.Choosable)
    {source : String} {index : Nat} (parsed : Command.parse source = .ok (.choose index)) :
    ∃ answer, console.execute source = .ok answer ∧ console.Chosen index answer := by
  obtain ⟨answer, done, handled, chosen⟩ :=
    ready.exists_choose choosable (Line.ofString source) index
  obtain ⟨changes, -, whole⟩ := handled.exists_withChanges (Line.ofString source)
  refine ⟨answer.withChanges (Line.ofString source), ?_, ?_⟩
  · have done : console.perform (Line.ofString source) (.choose index) = .ok answer := done
    simp only [execute, parsed, done, bind, Except.bind]
    rfl
  rw [whole]
  constructor
  case selectable =>
    intro diagnostic label failed
    cases said : answer.outcome with
    | ok lines =>
        rw [said] at failed
        cases failed
    | error diagnostic' =>
        rw [said] at failed
        cases failed
        exact chosen.selectable _ label said
  case annotates =>
    intro offer link shown listed
    obtain ⟨⟨lines, said⟩, annotates⟩ := chosen.annotates offer link shown listed
    exact ⟨⟨_, congrArg (Except.map _) said⟩, annotates⟩

end Ready

end Console

end Calculation
