import Calculation.Console.Listing

/-!
Executing command lines.

A line is answered with the lines to print or with a diagnostic, and with the console after it.
What the line changed in the document is shown after what the command itself has to say.
-/

namespace Calculation.Console

open Command (Line NodeReference)

/-- What a line came to. -/
structure Answer where
  outcome : Except Diagnostic (List String)
  console : Console

def say (console : Console) (lines : List String) : Answer := ⟨.ok lines, console⟩

def refuse (console : Console) (span : Span) (cause : Diagnostic.Cause) : Answer :=
  ⟨.error (.pointingAt span cause), console⟩

/-! ## The commands -/

def begin (console : Console) (line : Line) (beginning : Expr) : Answer :=
  let (id, workspace) := console.workspace.begin console.theory beginning
  let begun := { console with workspace, current := some id }
  match begun.document.find? id with
  | some chain => begun.say chain.nodeLines
  | none => begun.refuse line.wordSpan .noChain

def addRule (console : Console) (rule : Rule) : Answer :=
  { console with theory := console.theory.add rule }.say ["added rule " ++ rule.line]

/-- Shows a chain by some lines of it. -/
def showChain (console : Console) (line : Line) (number : Option Nat)
    (lines : Chain → List String) : Answer :=
  match console.pick? number with
  | some chain => console.say (lines chain)
  | none => console.refuse line.wordSpan .noChain

/-- The console shows one list at a time, so all its requests go by one ticket. -/
def ticket : Ticket := 0

def select (console : Console) (line : Line) (reference : NodeReference) : Except Fault Answer := do
  match console.resolve reference with
  | .error cause => pure (console.refuse line.operandSpan cause)
  | .ok node =>
    let request ← console.session.request node ticket
    let asked := console.follow request
    match request.answer, asked.document.node? node with
    | none, _ => pure (asked.refuse line.operandSpan (.notSelectable (asked.label node)))
    | some _, none => pure (asked.refuse line.operandSpan (.invalidNode (asked.label node)))
    | some [], some found =>
      let closed := asked.follow asked.session.dismiss
      pure (closed.refuse line.operandSpan (.noSuggestions found.expr.text))
    | some links, some found =>
      let offer : Offer := ⟨node, links⟩
      pure ({ asked with offer := some offer }.say (asked.offerLines offer found.expr))

def choose (console : Console) (line : Line) (index : Nat) : Except Fault Answer := do
  match console.offer with
  | none => pure (console.refuse line.wordSpan .noChooser)
  | some offer =>
    match offer.links[index]? with
    | none =>
      pure (console.refuse line.operandSpan (.noSuchSuggestion index offer.links.length))
    | some link =>
      let choice ← console.session.choose offer.node link
      let chosen := console.follow choice
      if choice.answer then pure ({ chosen with offer := none }.say [])
      else pure (chosen.refuse line.wordSpan (.notSelectable (chosen.label offer.node)))

def dismiss (console : Console) : Answer :=
  let dismissal := console.session.dismiss
  let closed := { console.follow dismissal with offer := none }
  closed.say (if dismissal.answer then ["closed the suggestions"] else [])

def escape (console : Console) : Except Fault Answer := do
  let step ← console.session.escape
  pure ((console.follow step).say (if step.answer then [] else ["nothing to undo"]))

/-- Lets the chain grow by what was chosen for the root of a step. -/
def commit (console : Console) (line : Line) : Except Fault Answer := do
  let step ← console.session.commit
  let after := console.follow step
  pure (if step.answer then after.say [] else after.refuse line.wordSpan .nothingToCommit)

def perform (console : Console) (line : Line) : Command → Except Fault Answer
  | .begin beginning => pure (console.begin line beginning)
  | .rule rule => pure (console.addRule rule)
  | .rules => pure (console.say (console.theory.rules.map Rule.line))
  | .chain number => pure (console.showChain line number console.chainLines)
  | .nodes number => pure (console.showChain line number Chain.nodeLines)
  | .select reference => console.select line reference
  | .choose index => console.choose line index
  | .dismiss => pure console.dismiss
  | .escape => console.escape
  | .commit => console.commit line
  | .help => pure (console.say Command.helpLines)
  | .quit => pure ({ console with finished := true }.say [])

/-! ## Lines -/

/-- Shows what has changed after what the command had to say.  After a refusal the changes wait for
the next line. -/
def Answer.withChanges (answer : Answer) (line : Line) : Answer :=
  match answer.outcome with
  | .error _ => answer
  | .ok lines =>
    let shown := { answer.console with pending := [] }
    match answer.console.pending.mapM shown.changeLines with
    | .ok changes => shown.say (lines ++ changes.flatten)
    | .error cause => shown.refuse line.wordSpan cause

def execute (console : Console) (source : String) : Except Fault Answer := do
  match Command.parse source with
  | .error diagnostic => pure ⟨.error diagnostic, console⟩
  | .ok command =>
    let line := Line.ofString source
    pure ((← console.perform line command).withChanges line)

end Calculation.Console
