import Calculation.Chain

/-!
Documents: the chains of a session, in the order of their ids.
-/

namespace Calculation

/-- The chains of a session, the oldest first. -/
structure Document where
  chains : List Chain := []
deriving DecidableEq

namespace Document

/-- Puts the chain in its place in a list, or in the place of the one with the same id. -/
def insertInto (chain : Chain) : List Chain → List Chain
  | [] => [chain]
  | first :: rest =>
    if chain.id < first.id then chain :: first :: rest
    else if chain.id = first.id then chain :: rest
    else first :: insertInto chain rest

/-- The document with the chain, which takes the place of the one with the same id. -/
def insert (document : Document) (chain : Chain) : Document := ⟨insertInto chain document.chains⟩

def find? (document : Document) (id : ChainId) : Option Chain :=
  document.chains.find? (·.id = id)

def position? (document : Document) (id : ChainId) : Option Nat :=
  document.chains.findIdx? (·.id = id)

/-- The chain of the document that the node is one of. -/
def owner? (document : Document) (node : NodeId) : Option Chain :=
  (document.find? node.chain).filter (·.contains node)

/-- The node, if it is in the document. -/
def node? (document : Document) (node : NodeId) : Option Node :=
  (document.owner? node).bind (·.node? node)

/-- The document with another choice at a node.  Nothing changes if its chain is not there. -/
def annotate (document : Document) (node : NodeId) (choice : Option Choice) :
    Except Fault Document := do
  match document.find? node.chain with
  | none => pure document
  | some chain => pure (document.insert (← chain.annotate node choice))

end Document

end Calculation
