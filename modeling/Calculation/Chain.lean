import Calculation.Chain.Node
import Calculation.Theory.Standard

/-!
Chains: a beginning expression and links that lead on from it.

A chain only grows.  It keeps the nodes of all its steps, in the order of the steps, and the indices
of their roots.  The choices at its nodes are all that can change, and a copy of a chain has none.
-/

namespace Calculation

/-- What must not happen: an operation that was handed a node it cannot work on. -/
inductive Fault where
  /-- The node is not one of the chain's. -/
  | foreignNode (node : NodeId) (chain : ChainId)
  /-- The node is to be annotated while another chain is being worked on. -/
  | otherChainActive (node : NodeId) (active : ChainId)
deriving DecidableEq

/-- A beginning and the links that lead on from it. -/
structure Chain where
  id : ChainId
  beginning : Expr
  theory : Theory
  links : List Link
  nodes : List Node
  /-- The index of the first node of every step. -/
  roots : List Nat
deriving DecidableEq

namespace Chain

/-! ## Growing -/

def start (id : ChainId) (theory : Theory) (beginning : Expr) : Chain where
  id
  beginning
  theory
  links := []
  nodes := Node.layout beginning none 0 .left 0
  roots := [0]

def append (chain : Chain) (link : Link) : Chain :=
  let root := chain.nodes.length
  { chain with
    links := chain.links ++ [link]
    nodes := chain.nodes ++ Node.layout link.target none root .left root
    roots := chain.roots ++ [root] }

/-- The same chain with another id and without any choices. -/
def copy (chain : Chain) (id : ChainId) : Chain :=
  { chain with id, nodes := chain.nodes.map fun node => { node with choice := none } }

/-- The chain that `(x ⋅ y) ⋅ z` equals `x ⋅ (y ⋅ z)`. -/
def associativity (id : ChainId) : Chain :=
  let x := Expr.named "x"
  let y := Expr.named "y"
  let z := Expr.named "z"
  (start id .standard ((x * y) * z)).append ⟨.equal, x * (y * z)⟩

/-! ## Looking -/

def current (chain : Chain) : Expr := (chain.links.getLast?.map Link.target).getD chain.beginning

def idOf (chain : Chain) (index : Nat) : NodeId := ⟨chain.id, index⟩

def steps (chain : Chain) : List NodeId := chain.roots.map chain.idOf

def lastStep (chain : Chain) : NodeId := chain.idOf (chain.roots.getLast?.getD 0)

def contains (chain : Chain) (node : NodeId) : Bool :=
  node.chain == chain.id && node.index < chain.nodes.length

/-- The node, if it is one of the chain's. -/
def node? (chain : Chain) (node : NodeId) : Option Node :=
  if chain.contains node then chain.nodes[node.index]? else none

/-- The node, which must be one of the chain's. -/
def node (chain : Chain) (node : NodeId) : Except Fault Node :=
  match chain.node? node with
  | some found => .ok found
  | none => .error (.foreignNode node chain.id)

/-- How many operations the node at the index stands below.  A parent stands before its operands, so
the way up leads to ever smaller indices. -/
def depth (chain : Chain) (index : Nat) : Nat :=
  match chain.nodes[index]?.bind Node.parent with
  | none => 0
  | some parent => if parent < index then chain.depth parent + 1 else 0

/-- The chain with another choice at a node, which must be one of the chain's. -/
def annotate (chain : Chain) (node : NodeId) (choice : Option Choice) : Except Fault Chain :=
  if chain.contains node then
    .ok { chain with
      nodes := chain.nodes.modify node.index fun found => { found with choice := choice } }
  else
    .error (.foreignNode node chain.id)

/-! ## Text -/

/-- The lines of the chain: its beginning, and then its links, set in. -/
def lines (chain : Chain) : List String :=
  chain.beginning.text :: chain.links.map fun link => "  " ++ link.tailText

def text (chain : Chain) : String := String.intercalate "\n" chain.lines

end Chain

end Calculation
