import Calculation.Document

/-!
Sessions: a document and what a user has selected in it.

A session has two slots, one for a node that stands on the left of its operation, or has no other
beside it, and one for a node on the right.  The nodes in the slots carry the choices made for them.
A session works on one chain at a time, from the first choice until both slots are empty again.
While a user is looking at the suggestions for a node, the session knows the request that they
answer, so that it can say when the list has to be closed.

Operations are functions to a `Transition`: the answer, the session after it, what changed in the
document, and the request whose list was closed.  An operation that the session does not admit
changes nothing.
-/

namespace Calculation

/-- What an operation changed, for those who show it. -/
inductive Change where
  /-- The choice at the node was made or taken back. -/
  | node (node : NodeId)
  /-- The chain has grown, or is no longer worked on. -/
  | chain (chain : ChainId)
deriving DecidableEq

/-- What the caller knows a request for suggestions by. -/
abbrev Ticket := Nat

/-- A document and what is selected in it. -/
structure Session where
  document : Document := {}
  /-- The chain that is worked on. -/
  active : Option ChainId := none
  /-- The selected node that stands on the left or alone. -/
  left : Option NodeId := none
  /-- The selected node that stands on the right. -/
  right : Option NodeId := none
  /-- The request whose suggestions are shown. -/
  chooser : Option Ticket := none
deriving DecidableEq

/-- What an operation came to. -/
structure Transition (α : Type) where
  answer : α
  session : Session
  changes : List Change := []
  /-- The request whose suggestions were closed by the operation. -/
  closed : Option Ticket := none

namespace Session

/-! ## Slots -/

def slot (session : Session) : Side → Option NodeId
  | .left => session.left
  | .right => session.right

def setSlot (session : Session) (side : Side) (node : Option NodeId) : Session :=
  match side with
  | .left => { session with left := node }
  | .right => { session with right := node }

/-- The selected node that others are compared with. -/
def selected (session : Session) : Option NodeId := session.left <|> session.right

def stay {α : Type} (session : Session) (answer : α) : Transition α := { answer, session }

/-- Empties the slot of a side and takes back the choice at its node. -/
def clear (session : Session) (side : Side) : Except Fault (Session × List Change) := do
  match session.slot side with
  | none => pure (session, [])
  | some node =>
    let document ← session.document.annotate node none
    pure ({ session.setSlot side none with document }, [.node node])

/-- Empties both slots, the right one first. -/
def clearBoth (session : Session) : Except Fault (Session × List Change) := do
  let (session, right) ← session.clear .right
  let (session, left) ← session.clear .left
  pure (session, right ++ left)

/-- Stops working on a chain if both slots are empty. -/
def release (session : Session) : Session × List Change :=
  match session.left, session.right, session.active with
  | none, none, some chain => ({ session with active := none }, [.chain chain])
  | _, _, _ => (session, [])

/-! ## Adding chains -/

/-- Adds a chain to the document, or hands it back if one with its id is there. -/
def addChain (session : Session) (chain : Chain) : Except Chain Session :=
  match session.document.find? chain.id with
  | some _ => .error chain
  | none => .ok { session with document := session.document.insert chain }

/-- Starts a chain in the document under an id that no other has. -/
def begin (session : Session) (id : ChainId) (theory : Theory) (beginning : Expr) : Session :=
  { session with document := session.document.insert (.start id theory beginning) }

end Session

end Calculation
