import Calculation.Session.Chooser

/-!
Selecting nodes: choosing a link for a node, taking a choice back, and committing.

A commit turns the link chosen for the root of a step into the next link of its chain.
-/

namespace Calculation

namespace Session

/-! ## Choosing -/

/-- Puts the node in the slot of its side with the link chosen for it. -/
def place (session : Session) (node : NodeId) (link : Link) :
    Except Fault (Transition Bool) := do
  match session.document.find? node.chain with
  | none => pure (session.stay false)
  | some chain =>
    let found ← chain.node node
    let document ← session.document.annotate node (some ⟨found.side, link⟩)
    pure {
      answer := true
      session := { session.setSlot found.side (some node) with document }
      changes := [.node node] }

/-- Starts working on the chain, unless it is worked on already. -/
def activate (session : Session) (node : NodeId) : Except Fault Session :=
  match session.active with
  | none => .ok { session with active := some node.chain }
  | some active =>
    if active = node.chain then .ok session else .error (.otherChainActive node active)

/-- Chooses a link for a node, which need not be one suggested.  The list that is shown counts as
closed by the caller. -/
def choose (session : Session) (node : NodeId) (link : Link) :
    Except Fault (Transition Bool) := do
  let admission ← session.admission node
  if admission = .refused then pure (session.stay false)
  else
    let session ← session.activate node
    let (session, cleared) ←
      if admission = .replacing then session.clearBoth else pure (session, [])
    let placed ← { session with chooser := none : Session }.place node link
    pure { placed with changes := cleared ++ placed.changes }

/-! ## Going back -/

/-- The side that is emptied next: the right one, if there is a node on it. -/
def nextToClear? (session : Session) : Option Side :=
  if session.right.isSome then some .right
  else if session.left.isSome then some .left
  else none

/-- Goes back by one: closes the list that is shown, or else empties one of the slots. -/
def escape (session : Session) : Except Fault (Transition Bool) := do
  match session.chooser with
  | some ticket =>
    pure { answer := true, session := { session with chooser := none }, closed := some ticket }
  | none =>
    match session.nextToClear? with
    | none => pure (session.stay false)
    | some side =>
      let (session, cleared) ← session.clear side
      let (session, released) := session.release
      pure { answer := true, session, changes := cleared ++ released }

/-! ## Committing -/

/-- The chain that a commit lets grow, and its new link: the one chosen for the root of a step that
is selected alone. -/
def committable? (session : Session) : Except Fault (Option (Chain × Link)) := do
  match session.left, session.right with
  | some node, none =>
    match session.document.find? node.chain with
    | none => pure none
    | some chain =>
      let found ← chain.node node
      pure (if found.isRoot then found.choice.map fun choice => (chain, choice.link) else none)
  | _, _ => pure none

/-- Appends the link chosen for the root of a step to its chain, and empties the slots. -/
def commit (session : Session) : Except Fault (Transition Bool) := do
  match ← session.committable? with
  | none => pure (session.stay false)
  | some (chain, link) =>
    let grown : Session :=
      { session with document := session.document.insert (chain.append link) }
    let (cleared, emptied) ← grown.clearBoth
    let (released, idle) := cleared.release
    pure { answer := true, session := released, changes := .chain chain.id :: (emptied ++ idle) }

end Session

end Calculation
