import Calculation.Session.Admission

/-!
The suggestions for a node, and the list that shows them.

What is chosen for the operands of an operation are facts about them.  The suggestions for the
operation itself come from the rules of its chain resolved with these facts, so a rule that holds
under a condition becomes one that suggests something when the condition has been chosen.
-/

namespace Calculation

namespace Session

/-- What the choice at a node says: that its expression compares so to the chosen one. -/
def fact? (chain : Chain) (index : Nat) : Except Fault (Option Relation) := do
  let node ← chain.node (chain.idOf index)
  pure (node.choice.map fun choice => choice.link.relationFrom node.expr)

/-- The rules that suggestions for the node come from: those of its chain, resolved with what the
choices at its operands say. -/
def effectiveTheory (session : Session) (node : NodeId) : Except Fault (Option Theory) := do
  match session.document.owner? node with
  | none => pure none
  | some chain =>
    let found ← chain.node node
    let facts ← found.operands.mapM (fact? chain)
    pure (some ((facts.filterMap id).foldl Theory.resolve chain.theory))

/-- Asks for the suggestions for a node.  A list that is still shown is closed. -/
def request (session : Session) (node : NodeId) (ticket : Ticket) :
    Except Fault (Transition (Option (List Link))) := do
  if (← session.admission node) = .refused then pure (session.stay none)
  else
    match ← session.effectiveTheory node, session.document.node? node with
    | some theory, some found =>
      pure {
        answer := some (theory.suggestions found.expr)
        session := { session with chooser := some ticket }
        closed := session.chooser }
    | _, _ => pure (session.stay none)

/-- Forgets the list that is shown, for a caller that closed it. -/
def dismiss (session : Session) : Transition Bool where
  answer := session.chooser.isSome
  session := { session with chooser := none }

end Session

end Calculation
