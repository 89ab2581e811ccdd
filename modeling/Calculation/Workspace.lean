import Calculation.Session.Selection

/-!
Workspaces: a session, the chains that are not in its document, and the ids that are free.

A loose chain can be extended by hand, and be moved into the document for good.  Every chain that is
made, in the document or outside it, gets the least id that was never given, so ids grow with age.
-/

namespace Calculation

/-- A session with the chains outside it. -/
structure Workspace where
  session : Session := {}
  loose : List Chain := []
  /-- The id of the next chain. -/
  nextId : ChainId := 0
deriving DecidableEq

namespace Workspace

/-- The chain with the id, in the document or outside it. -/
def chain? (workspace : Workspace) (id : ChainId) : Option Chain :=
  workspace.session.document.find? id <|> workspace.loose.find? (·.id = id)

def begin (workspace : Workspace) (theory : Theory) (beginning : Expr) : ChainId × Workspace :=
  let id := workspace.nextId
  (id, { workspace with session := workspace.session.begin id theory beginning, nextId := id + 1 })

/-- Makes a loose chain, given what it is under its id. -/
def build (workspace : Workspace) (make : ChainId → Chain) : ChainId × Workspace :=
  let id := workspace.nextId
  (id, { workspace with loose := workspace.loose ++ [make id], nextId := id + 1 })

def start (workspace : Workspace) (theory : Theory) (beginning : Expr) : ChainId × Workspace :=
  workspace.build fun id => .start id theory beginning

def copy (workspace : Workspace) (chain : Chain) : ChainId × Workspace :=
  workspace.build chain.copy

def extend (workspace : Workspace) (id : ChainId) (link : Link) : Workspace :=
  { workspace with
    loose := workspace.loose.map fun chain => if chain.id = id then chain.append link else chain }

/-- Moves a loose chain into the document.  It stays loose if the session hands it back. -/
def adopt (workspace : Workspace) (chain : Chain) : Bool × Workspace :=
  match workspace.session.addChain chain with
  | .ok session =>
    (true, { workspace with session, loose := workspace.loose.filter (·.id ≠ chain.id) })
  | .error _ => (false, workspace)

end Workspace

end Calculation
