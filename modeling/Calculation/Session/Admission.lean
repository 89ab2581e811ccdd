import Calculation.Session

/-!
Which nodes can be annotated beside what is selected already.
-/

namespace Calculation

namespace Session

/-- Whether a node can be annotated beside what is selected. -/
inductive Admission where
  | refused
  | admitted
  /-- The node is the operation that the selected nodes are operands of, and takes their place. -/
  | replacing
deriving DecidableEq

/-- Decides whether the node can be annotated.

Any node of the document can if nothing is selected.  Otherwise it must belong to the same step as
the selection, and either be the parent of the selected node, or have the same parent while one of
the slots is empty. -/
def admission (session : Session) (node : NodeId) : Except Fault Admission := do
  match session.document.owner? node with
  | none => pure .refused
  | some chain =>
    match session.selected with
    | none => pure .admitted
    | some selected =>
      if selected = node ∨ selected.chain ≠ node.chain then pure .refused
      else
        let before ← chain.node selected
        let wanted ← chain.node node
        if before.root ≠ wanted.root then pure .refused
        else if before.parent = some node.index then pure .replacing
        else if session.left.isSome ∧ session.right.isSome then pure .refused
        else if before.parent = wanted.parent then pure .admitted
        else pure .refused

end Session

end Calculation
