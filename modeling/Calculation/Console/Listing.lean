import Calculation.Console

/-!
What a console shows: rules, chains with their links, and nodes with the choices made for them.
-/

namespace Calculation

def Choice.suffix (choice : Option Choice) : String :=
  match choice with
  | some choice => " ⇒ " ++ choice.link.text
  | none => ""

def indent (spaces : Nat) (text : String) : String :=
  String.ofList (List.replicate spaces ' ') ++ text

/-! ## Rules -/

def Rule.line (rule : Rule) : String := rule.name ++ ": " ++ rule.text

/-! ## Nodes -/

/-- What is shown of a node: its expression, and its choice. -/
def Node.line (node : Node) : String := node.expr.text ++ Choice.suffix node.choice

namespace Chain

/-- The line for the node at an index, which is set in by its depth. -/
def nodeLine (chain : Chain) (index : Nat) (node : Node) : String :=
  indent (2 + 2 * chain.depth index) (toString index ++ " " ++ node.line)

/-- The lines for the nodes from an index on, the next step being number `step`. -/
def nodeLinesFrom (chain : Chain) (step index : Nat) : List Node → List String
  | [] => []
  | node :: rest =>
    if node.isRoot then
      ("step " ++ toString step ++ ":") :: chain.nodeLine index node ::
        chain.nodeLinesFrom (step + 1) (index + 1) rest
    else
      chain.nodeLine index node :: chain.nodeLinesFrom step (index + 1) rest

def nodeLines (chain : Chain) : List String := chain.nodeLinesFrom 0 0 chain.nodes

end Chain

namespace Console

def chainLines (console : Console) (chain : Chain) : List String :=
  ("chain " ++ toString (console.chainNumber chain.id) ++ ":") :: chain.lines.map (indent 2)

/-- The line for a node of the document that changed, after its label. -/
def labelledLine (console : Console) (node : NodeId) (found : Node) : String :=
  console.label node ++ " " ++ found.line

def offerLines (console : Console) (offer : Offer) (expr : Expr) : List String :=
  ("rewrites for " ++ console.label offer.node ++ " " ++ expr.text ++ ":") ::
    offer.links.zipIdx.map fun (link, index) =>
      "  [" ++ toString index ++ "] " ++ link.text

def changeLines (console : Console) : Change → Except Diagnostic.Cause (List String)
  | .node node =>
    match console.document.node? node with
    | some found => .ok [console.labelledLine node found]
    | none => .error (.invalidNode (console.label node))
  | .chain id =>
    match console.document.find? id with
    | some chain => .ok (console.chainLines chain)
    | none => .error .noChain

end Console

end Calculation
