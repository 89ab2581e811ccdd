import Calculation.Proofs.Console
import Calculation.Proofs.Vocabulary

/-!
Conversations: what a console is told, line after line.

A list of suggestions is printed once and chosen from later, by number and maybe after many other
lines.  It is still the list to choose from then, since whatever could make it wrong has closed it
(`Console.Effect`), both for the console and for its session.

The steps of a conversation are the lines with what they came to (`Console.trace`), so that it can
be said which list was printed last.

* `Console.Remembers.step`: one line.
* `Console.Remembers.exists_trace`: what every line keeps, any number of lines keep.
* `Console.exists_run_inStep`: any number of lines, whatever they are and whichever are refused.
-/

namespace Calculation.Console

open Command (NodeReference)

variable {console : Console}

/-- A line that was executed. -/
structure Step where
  before : Console
  source : String
  answer : Answer

/-- Executes one line after the other. -/
def run (console : Console) (sources : List String) : Except Fault Console :=
  sources.foldlM (fun console source => Answer.console <$> console.execute source) console

/-- The steps of a run. -/
def trace (console : Console) : List String → Except Fault (List Step)
  | [] => pure []
  | source :: rest => do
    let answer ← console.execute source
    let later ← answer.console.trace rest
    pure (⟨console, source, answer⟩ :: later)

/-! ## Lists that are printed -/

/-- The line has printed a list of suggestions. -/
def Step.isListing (step : Step) : Bool :=
  match Command.parse step.source with
  | .ok command => Console.isListing command step.answer.outcome
  | .error _ => false

/-- The last line that has printed a list of suggestions. -/
def lastListing? (steps : List Step) : Option Step := steps.reverse.find? Step.isListing

theorem lastListing?_concat (steps : List Step) (step : Step) :
    lastListing? (steps ++ [step]) =
      if step.isListing = true then some step else lastListing? steps :=
  find?_reverse_concat ..

/-- The line has printed the links of the offer: those that its session suggested for the node that
was selected. -/
structure Step.Lists (step : Step) (offer : Offer) : Prop where
  selected : ∃ reference, Command.parse step.source = .ok (.select reference) ∧
    step.before.resolve reference = .ok offer.node
  suggested : ∃ request, step.before.session.request offer.node ticket = .ok request ∧
    request.answer = some offer.links
  printed : ∃ found, step.before.document.node? offer.node = some found ∧
    step.answer.outcome = .ok (step.before.offerLines offer found.expr)
  /-- After the heading comes a line for each link, with its number. -/
  numbered : ∃ lines, step.answer.outcome = .ok lines ∧ ∀ index link,
    offer.links[index]? = some link →
      lines[index + 1]? = some ("  [" ++ toString index ++ "] " ++ link.text)

theorem getElem?_offerLines {offer : Offer} {index : Nat} {link : Link}
    (listed : offer.links[index]? = some link) (expr : Expr) :
    (console.offerLines offer expr)[index + 1]? =
      some ("  [" ++ toString index ++ "] " ++ link.text) := by
  rw [offerLines, List.getElem?_cons_succ, List.getElem?_map, List.getElem?_zipIdx, listed]
  simp

/-- A list that is printed for a node that is selected. -/
theorem Step.Lists.of_effect {source : String} {answer : Answer} {reference : NodeReference}
    {node : NodeId} {links : List Link} {found : Node} {request : Transition (Option (List Link))}
    (parsed : Command.parse source = .ok (.select reference))
    (resolved : console.resolve reference = .ok node)
    (asked : console.session.request node ticket = .ok request)
    (given : request.answer = some links) (known : console.document.node? node = some found)
    (printed : answer.outcome = .ok (console.offerLines ⟨node, links⟩ found.expr)) :
    Step.Lists ⟨console, source, answer⟩ ⟨node, links⟩ where
  selected := ⟨reference, parsed, resolved⟩
  suggested := ⟨request, asked, given⟩
  printed := ⟨found, known, printed⟩
  numbered := ⟨_, printed, fun _ _ listed => getElem?_offerLines listed _⟩

/-! ## Runs -/

/-- The offer of a console is the list that was printed last, and what that depends on is as it
was. -/
def Remembers (steps : List Step) (console : Console) : Prop :=
  ∀ offer, console.offer = some offer → ∃ step, lastListing? steps = some step ∧
    step.Lists offer ∧ step.before.session.Undisturbed console.session

theorem Ready.empty (nextId : ChainId) (theory : Theory) :
    ({ theory, workspace := { nextId } } : Console).Ready :=
  ⟨Workspace.settled_empty nextId, rfl, rfl⟩

namespace Remembers

variable {steps : List Step}

theorem empty (nextId : ChainId) (theory : Theory) :
    Remembers [] { theory, workspace := { nextId } } :=
  fun _ shown => nomatch shown

/-- All that was printed can be chosen. -/
theorem choosable (remembers : Remembers steps console) (ready : console.Ready) :
    console.Choosable := by
  intro offer link shown
  obtain ⟨step, -, lists, undisturbed⟩ := remembers offer shown
  obtain ⟨request, asked, given⟩ := lists.suggested
  have open' : console.session.chooser.isSome = true := by
    rw [← ready.shown, shown]
    rfl
  obtain ⟨ticket', open'⟩ := Option.isSome_iff_exists.1 open'
  exact (ready.settled.session.current open' undisturbed asked given).choose link

/-- A line leaves the list, closes it, or prints another. -/
theorem step (remembers : Remembers steps console) {source : String} {answer : Answer}
    (came : (∃ diagnostic, Command.parse source = .error diagnostic ∧ answer.console = console) ∨
      ∃ command, Command.parse source = .ok command ∧ Effect console command answer) :
    Remembers (steps ++ [⟨console, source, answer⟩]) answer.console := by
  intro offer shown
  rw [lastListing?_concat]
  rcases came with ⟨diagnostic, parsed, same⟩ | ⟨command, parsed, effect⟩
  · rw [if_neg]
    · exact same ▸ remembers offer (same ▸ shown)
    · simp [Step.isListing, parsed]
  · have listing : Step.isListing ⟨console, source, answer⟩ =
        isListing command answer.outcome := by
      simp only [Step.isListing, parsed]
    rw [listing]
    cases effect with
    | kept unlisted same chooser undisturbed =>
        obtain ⟨step, last, lists, before⟩ := remembers offer (same ▸ shown)
        rw [if_neg (Bool.eq_false_iff.1 unlisted)]
        exact ⟨step, last, lists, before.trans undisturbed⟩
    | closed unlisted none => cases shown.symm.trans none
    | listed reference node links found request select resolved asked given known new printed
        session =>
        cases shown.symm.trans new
        subst select
        rw [printed, isListing, if_pos rfl]
        refine ⟨_, rfl, .of_effect parsed resolved asked given known printed, ?_⟩
        rw [session]
        exact ⟨rfl, rfl, fun _ _ listed => listed⟩

/-- What holds of the steps and the console after any line holds after any number of lines. -/
theorem exists_trace (remembers : Remembers steps console) (ready : console.Ready)
    (invariant : List Step → Console → Prop)
    (keeps : ∀ steps console source answer, console.Ready → invariant steps console →
      console.execute source = .ok answer →
      invariant (steps ++ [⟨console, source, answer⟩]) answer.console)
    (holds : invariant steps console) (sources : List String) :
    ∃ later after, console.trace sources = .ok later ∧ console.run sources = .ok after ∧
      later.map Step.source = sources ∧ after.Ready ∧ Remembers (steps ++ later) after ∧
      invariant (steps ++ later) after := by
  induction sources generalizing console steps with
  | nil =>
      refine ⟨[], console, rfl, rfl, rfl, ready, ?_, ?_⟩
      · rwa [List.append_nil]
      · rwa [List.append_nil]
  | cons source rest ih =>
      obtain ⟨answer, done, between, came⟩ :=
        ready.exists_execute (remembers.choosable ready) source
      obtain ⟨later, after, traced, ran, same, last, remembers, holds⟩ :=
        ih (remembers.step came) between (keeps steps console source answer ready holds done)
      refine ⟨⟨console, source, answer⟩ :: later, after, ?_, ?_, ?_, last, ?_, ?_⟩
      · simp only [trace, done, traced, bind, Except.bind]
        rfl
      · rw [run, List.foldlM_cons, done]
        exact ran
      · rw [List.map_cons, same]
      · rwa [List.append_assoc] at remembers
      · rwa [List.append_assoc] at holds

theorem exists_run (remembers : Remembers steps console) (ready : console.Ready)
    (sources : List String) :
    ∃ later after, console.trace sources = .ok later ∧ console.run sources = .ok after ∧
      later.map Step.source = sources ∧ after.Ready ∧ Remembers (steps ++ later) after := by
  obtain ⟨later, after, traced, ran, same, last, remembers, -⟩ :=
    remembers.exists_trace ready (fun _ _ => True) (fun _ _ _ _ _ _ _ => trivial) trivial sources
  exact ⟨later, after, traced, ran, same, last, remembers⟩

end Remembers

/-- A console that is in step with its session after a conversation. -/
structure InStep (steps : List Step) (console : Console) : Prop where
  shown : console.offer.isSome = true ↔ console.session.chooser.isSome = true
  /-- The offer is the last list that was printed. -/
  listed : ∀ offer, console.offer = some offer →
    ∃ step, lastListing? steps = some step ∧ step.Lists offer
  /-- All changes have been shown. -/
  pending : console.pending = []
  /-- The number that a link was printed with is accepted, and annotates the node of the list with
  this link. -/
  choose : ∀ offer source index link, console.offer = some offer →
    Command.parse source = .ok (.choose index) → offer.links[index]? = some link →
    ∃ answer lines, console.execute source = .ok answer ∧ answer.outcome = .ok lines ∧
      console.session.Annotates offer.node link answer.console.session
  /-- A choice is never refused for its node. -/
  selectable : ∀ source index, Command.parse source = .ok (.choose index) →
    ∃ answer, console.execute source = .ok answer ∧ ∀ diagnostic label,
      answer.outcome = .error diagnostic → diagnostic.cause ≠ .notSelectable label

theorem Ready.inStep {steps : List Step} (ready : console.Ready)
    (remembers : Remembers steps console) : InStep steps console where
  shown := by rw [ready.shown]
  listed offer shown := by
    obtain ⟨step, last, lists, -⟩ := remembers offer shown
    exact ⟨step, last, lists⟩
  pending := ready.pending
  choose offer source index link shown parsed listed := by
    obtain ⟨answer, done, chosen⟩ :=
      ready.exists_execute_choose (remembers.choosable ready) parsed
    obtain ⟨⟨lines, said⟩, annotates⟩ := chosen.annotates offer link shown listed
    exact ⟨answer, lines, done, said, annotates⟩
  selectable source index parsed := by
    obtain ⟨answer, done, chosen⟩ :=
      ready.exists_execute_choose (remembers.choosable ready) parsed
    exact ⟨answer, done, chosen.selectable⟩

/-- Whatever a new console is told, it is in step with its session after every line. -/
theorem exists_run_inStep (nextId : ChainId) (theory : Theory) (sources : List String) :
    ∃ steps console,
      ({ theory, workspace := { nextId } } : Console).trace sources = .ok steps ∧
      ({ theory, workspace := { nextId } } : Console).run sources = .ok console ∧
      steps.map Step.source = sources ∧ InStep steps console := by
  have ready : ({ theory, workspace := { nextId } } : Console).Ready :=
    ⟨Workspace.settled_empty nextId, rfl, rfl⟩
  have remembers : Remembers [] { theory, workspace := { nextId } } :=
    fun offer shown => nomatch shown
  obtain ⟨steps, console, traced, ran, same, ready, remembers⟩ :=
    remembers.exists_run ready sources
  exact ⟨steps, console, traced, ran, same, ready.inStep remembers⟩

/-- The list for the left factor stays open over other lines, some of them refused, and the number
it printed is still that of the link. -/
theorem exists_run_inStep_chosen :
    let c : Expr := .named "c"
    let theory : Theory := ⟨[.simple "order" [] ⟨.named "a", .less, c⟩]⟩
    let sources : List String := ["begin a * b", "select 1", "rules", "commit", "select 7",
      "choose 5", "begin a", "chain"]
    ∃ steps console step answer lines, ({ theory } : Console).trace sources = .ok steps ∧
      ({ theory } : Console).run sources = .ok console ∧
      steps.map (·.answer.outcome.toOption.isSome) =
        [true, true, true, false, false, false, true, true] ∧
      lastListing? steps = some step ∧ step.source = "select 1" ∧
      console.offer = some ⟨⟨0, 1⟩, [⟨.less, c⟩]⟩ ∧ step.Lists ⟨⟨0, 1⟩, [⟨.less, c⟩]⟩ ∧
      console.execute "choose 0" = .ok answer ∧ answer.outcome = .ok lines ∧
      console.session.Annotates ⟨0, 1⟩ ⟨.less, c⟩ answer.console.session := by
  intro c theory sources
  have listing : ∀ steps ∈ (({ theory } : Console).trace sources).toOption,
      steps.map (·.answer.outcome.toOption.isSome) =
        [true, true, true, false, false, false, true, true] ∧
      (lastListing? steps).map Step.source = some "select 1" := by decide +kernel
  have offered : ∀ console ∈ (({ theory } : Console).run sources).toOption,
      console.offer = some ⟨⟨0, 1⟩, [⟨.less, c⟩]⟩ := by decide +kernel
  have parsed : Command.parse "choose 0" = .ok (.choose 0) :=
    toOption_eq_some_iff.1 (by decide +kernel)
  obtain ⟨steps, console, traced, ran, -, inStep⟩ := exists_run_inStep 0 theory sources
  obtain ⟨answers, last⟩ := listing steps (congrArg Except.toOption traced)
  have shown := offered console (congrArg Except.toOption ran)
  obtain ⟨step, found, lists⟩ := inStep.listed _ shown
  rw [found, Option.map_some] at last
  obtain ⟨answer, lines, done, said, annotates⟩ :=
    inStep.choose _ _ 0 _ shown parsed rfl
  exact ⟨steps, console, step, answer, lines, traced, ran, answers, found, Option.some.inj last,
    shown, lists, done, said, annotates⟩

end Calculation.Console
