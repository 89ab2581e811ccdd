import Calculation.Command
import Calculation.Session.Selection
import Calculation.Workspace

/-!
Consoles: a session that is worked on by lines of text.

A console shows one list of suggestions at a time, its offer, and has them chosen by number.  It
also remembers which chain was begun last, which is what commands are about when no chain is worked
on, and what has changed since it last showed anything.  Users know chains by their place in the
document, and nodes by that and their index.
-/

namespace Calculation

/-- The suggestions that are shown for a node. -/
structure Offer where
  node : NodeId
  links : List Link
deriving DecidableEq

/-- A session with what is needed to talk about it in lines. -/
structure Console where
  workspace : Workspace := {}
  /-- The rules that new chains start with. -/
  theory : Theory := {}
  /-- The chain that was begun last. -/
  current : Option ChainId := none
  offer : Option Offer := none
  /-- What has changed and was not shown yet, each change once. -/
  pending : List Change := []
  /-- The user has asked to leave. -/
  finished : Bool := false
deriving DecidableEq

namespace Console

def start (theory : Theory) : Console := { theory }

def session (console : Console) : Session := console.workspace.session

def document (console : Console) : Document := console.session.document

/-- The list of changes with one more, unless it is there. -/
def insertChange (pending : List Change) (change : Change) : List Change :=
  if change ∈ pending then pending else pending ++ [change]

/-- The console after an operation of its session.  If that closed the list of suggestions, there is
no offer any more. -/
def follow {α : Type} (console : Console) (transition : Transition α) : Console :=
  { console with
    workspace := { console.workspace with session := transition.session }
    offer := if transition.closed.isSome then none else console.offer
    pending := transition.changes.foldl insertChange console.pending }

/-! ## Chains and nodes by number -/

/-- The place of a chain in the document, by which a user knows it. -/
def chainNumber (console : Console) (id : ChainId) : Nat :=
  (console.document.position? id).getD 0

/-- What a user knows a node by. -/
def label (console : Console) (node : NodeId) : String :=
  Command.NodeReference.text ⟨some (console.chainNumber node.chain), node.index⟩

/-- The chain that a user means: the one with the number, or without a number the one that is worked
on, or else the one that was begun last. -/
def pick? (console : Console) (number : Option Nat) : Option Chain :=
  match number with
  | some number => console.document.chains[number]?
  | none => (console.session.active <|> console.current).bind console.document.find?

/-- The node that a user means. -/
def resolve (console : Console) (reference : Command.NodeReference) :
    Except Diagnostic.Cause NodeId :=
  match console.pick? reference.chain with
  | none => .error .noChain
  | some chain =>
    let node := chain.idOf reference.index
    if chain.contains node then .ok node else .error (.invalidNode reference.text)

end Console

end Calculation
