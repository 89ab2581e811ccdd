import Calculation.Proofs.Conversation

/-!
A line that is refused leaves the console as it was.

Some commands learn from the session that they are to be refused, and what a session refuses leaves
it as it was.  There is one exception.  The suggestions for a node are asked for before it is known
whether there are any, so a list that was shown for another node has been closed by then, and an
empty list takes its place that is closed at once (`Console.withoutList`).

* `Console.Ready.keeps`: one command, before its changes are shown.
* `Console.exists_run_persists`: any line, in every state that a console can get into.
-/

namespace Calculation.Console

open Command (Line NodeReference)

variable {console : Console} {line : Line} {command : Command} {answer : Answer}

/-- The console with no list of suggestions shown, neither its own nor one that its session knows
of. -/
def withoutList (console : Console) : Console :=
  { console with
    workspace := { console.workspace with session := { console.session with chooser := none } }
    offer := none }

/-- What is left of the console if the command is refused for the cause. -/
def refusing (console : Console) : Command → Diagnostic.Cause → Console
  | .select _, .noSuggestions _ => console.withoutList
  | _, _ => console

/-- If the command was refused, then the console is what such a refusal leaves of it. -/
def Keeps (console : Console) (command : Command) (answer : Answer) : Prop :=
  ∀ diagnostic, answer.outcome = .error diagnostic →
    answer.console = console.refusing command diagnostic.cause

/-- What a line leaves of the console if it is refused.  A line that is no command is refused by
itself. -/
def refusingLine (console : Console) (source : String) (cause : Diagnostic.Cause) : Console :=
  match Command.parse source with
  | .ok command => console.refusing command cause
  | .error _ => console

/-- Executing the line succeeds, and if the line is refused then the console is what that leaves of
it. -/
def Persists (console : Console) (source : String) : Prop :=
  ∃ answer, console.execute source = .ok answer ∧ ∀ diagnostic,
    answer.outcome = .error diagnostic →
      answer.console = console.refusingLine source diagnostic.cause

/-! ## One command at a time -/

/-- A command that has something to say is not refused. -/
theorem Keeps.of_ok {lines : List String} (said : answer.outcome = .ok lines) :
    console.Keeps command answer := by
  intro diagnostic failed
  cases said.symm.trans failed

/-- Only an empty list of suggestions is refused by more than a diagnostic. -/
theorem Keeps.refuse (command : Command) (span : Span) {cause : Diagnostic.Cause}
    (other : console.refusing command cause = console) :
    console.Keeps command (console.refuse span cause) := by
  intro diagnostic failed
  cases failed
  exact other.symm

namespace Ready

/-- A chain that is begun is there to be shown. -/
theorem keeps_begin (console : Console) (line : Line) (beginning : Expr) :
    console.Keeps (.begin beginning) (console.begin line beginning) := by
  have listed : (console.workspace.begin console.theory beginning).2.session.document.find?
      (console.workspace.begin console.theory beginning).1 =
        some (.start console.workspace.nextId console.theory beginning) :=
    (Document.find?_insert ..).trans (if_pos rfl)
  unfold Console.begin
  split
  rename_i id workspace made
  rw [made] at listed
  dsimp only
  split
  · exact .of_ok rfl
  · rename_i missing
    cases listed.symm.trans missing

theorem keeps_showChain (line : Line) (number : Option Nat) (lines : Chain → List String)
    (other : ∀ cause, console.refusing command cause = console) :
    console.Keeps command (console.showChain line number lines) := by
  unfold Console.showChain
  split
  · exact .of_ok rfl
  · exact .refuse command _ (other _)

/-- A reference that means no node is refused for a cause of its own. -/
theorem refusing_of_resolve {reference : NodeReference} {cause : Diagnostic.Cause}
    (unresolved : console.resolve reference = .error cause) :
    console.refusing (.select reference) cause = console := by
  unfold resolve at unresolved
  split at unresolved
  · cases unresolved
    rfl
  · dsimp only at unresolved
    split at unresolved
    · cases unresolved
    · cases unresolved
      rfl

theorem keeps_select (ready : console.Ready) {reference : NodeReference}
    (done : console.select line reference = .ok answer) :
    console.Keeps (.select reference) answer := by
  unfold Console.select at done
  cases resolved : console.resolve reference with
  | error cause =>
      rw [resolved] at done
      cases done
      exact .refuse _ _ (refusing_of_resolve resolved)
  | ok node =>
      simp only [resolved] at done
      obtain ⟨step, asked, done⟩ := exists_of_bind_eq_ok done
      rcases Session.of_request asked with rfl | ⟨⟨admission, decided, admitted⟩, -, links, rfl⟩
      · cases done
        exact .refuse _ _ rfl
      · obtain ⟨found, known⟩ := ready.settled.session.exists_known decided admitted
        have same : (console.follow {
            answer := some links
            session := { console.session with chooser := some ticket }
            closed := console.session.chooser }).document.node? node = some found := known
        simp only [same] at done
        cases links with
        | nil =>
            cases done
            intro diagnostic failed
            cases failed
            -- the list that was shown before, if any, was closed by the request
            have offer : (if console.session.chooser.isSome then none else console.offer) =
                none := by
              cases shown : console.session.chooser with
              | none => exact ready.offer_eq_none shown
              | some ticket => rfl
            simp only [follow, refusing, withoutList, offer]
            rfl
        | cons link rest =>
            cases done
            exact .of_ok rfl

theorem keeps_choose (choosable : console.Choosable) {index : Nat}
    (done : console.choose line index = .ok answer) : console.Keeps (.choose index) answer := by
  unfold Console.choose at done
  cases shown : console.offer with
  | none =>
      rw [shown] at done
      cases done
      exact .refuse _ _ rfl
  | some offer =>
      simp only [shown] at done
      cases listed : offer.links[index]? with
      | none =>
          rw [listed] at done
          cases done
          exact .refuse _ _ rfl
      | some link =>
          obtain ⟨step, chose, accepted⟩ := choosable offer link shown
          simp only [listed, chose, accepted, bind, Except.bind, if_true] at done
          cases done
          exact .of_ok rfl

theorem keeps_commit (ready : console.Ready) (done : console.commit line = .ok answer) :
    console.Keeps .commit answer := by
  obtain ⟨step, committed, -, stays⟩ := ready.settled.session.exists_commit
  have committed : console.session.commit = .ok step := committed
  simp only [Console.commit, committed, bind, Except.bind] at done
  cases accepted : step.answer with
  | false =>
      cases stays accepted
      cases done
      exact .refuse _ _ rfl
  | true =>
      rw [accepted] at done
      cases done
      exact .of_ok rfl

theorem keeps (ready : console.Ready) (choosable : console.Choosable)
    (done : console.perform line command = .ok answer) : console.Keeps command answer := by
  cases command with
  | begin beginning =>
      cases done
      exact keeps_begin console line beginning
  | chain number =>
      cases done
      exact keeps_showChain line number _ fun _ => rfl
  | nodes number =>
      cases done
      exact keeps_showChain line number _ fun _ => rfl
  | select reference => exact ready.keeps_select done
  | choose index => exact keeps_choose choosable done
  | escape =>
      obtain ⟨step, -, done⟩ := exists_of_bind_eq_ok done
      cases done
      exact .of_ok rfl
  | commit => exact ready.keeps_commit done
  | rule | rules | dismiss | help | quit =>
      cases done
      exact .of_ok rfl

/-! ## Whole lines -/

/-- Nothing that a refused command does is left to be shown by the next line. -/
theorem persists (ready : console.Ready) (choosable : console.Choosable) (source : String) :
    console.Persists source := by
  unfold Persists execute refusingLine
  cases parsed : Command.parse source with
  | error diagnostic => exact ⟨_, rfl, fun _ _ => rfl⟩
  | ok command =>
      obtain ⟨answer, done, handled⟩ :=
        ready.exists_perform choosable (Line.ofString source) command
      obtain ⟨changes, -, whole⟩ := handled.exists_withChanges (Line.ofString source)
      simp only [done, bind, Except.bind]
      refine ⟨_, rfl, fun diagnostic failed => ?_⟩
      rw [whole] at failed ⊢
      cases said : answer.outcome with
      | ok lines =>
          rw [said] at failed
          cases failed
      | error diagnostic' =>
          rw [said] at failed
          obtain rfl : diagnostic' = diagnostic := Except.error.inj failed
          have kept := ready.keeps choosable done diagnostic' said
          have quiet : answer.console.pending = [] := handled.refused diagnostic' said
          rw [← kept, ← quiet]

end Ready

/-- However a new console has been used, no change waits to be shown, and a line that is refused
leaves everything as it was: the workspace with its document and its selection, the rules, the
current chain, and whether the user asked to leave.  The list of suggestions stays as well, unless
the line selects a node for which there are none. -/
theorem exists_run_persists (nextId : ChainId) (theory : Theory) (sources : List String) :
    ∃ console, ({ theory, workspace := { nextId } } : Console).run sources = .ok console ∧
      console.pending = [] ∧ ∀ source, console.Persists source := by
  have ready : ({ theory, workspace := { nextId } } : Console).Ready :=
    ⟨Workspace.settled_empty nextId, rfl, rfl⟩
  have remembers : Remembers [] { theory, workspace := { nextId } } :=
    fun offer shown => nomatch shown
  obtain ⟨steps, console, -, ran, -, ready, remembers⟩ := remembers.exists_run ready sources
  exact ⟨console, ran, ready.pending, ready.persists (remembers.choosable ready)⟩

end Calculation.Console
