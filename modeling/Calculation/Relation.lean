import Calculation.Diagnostic
import Calculation.Expr

/-!
Relations between expressions, and links, which are relations that lack their left side.

How the two sides compare is a `Comparator`: a relation sign with two flags, one for a relation that
reads from right to left and one for a relation that is negated.  The flags only change the text and
the meaning; the sides are never swapped, so `lhs` is always what stands on the left.
-/

namespace Calculation

/-! ## Comparators -/

/-- How two expressions are said to compare. -/
structure Comparator where
  symbol : Symbol
  /-- The relation reads from right to left. -/
  reversed : Bool := false
  /-- The relation is that it is not so. -/
  negated : Bool := false
deriving DecidableEq

namespace Comparator

def text (comparator : Comparator) : String :=
  comparator.symbol.text comparator.reversed comparator.negated

def negate (comparator : Comparator) : Comparator :=
  { comparator with negated := !comparator.negated }

def equal : Comparator := { symbol := .equality }

/-- `≠`, that is, not equal. -/
def notEqual : Comparator := { symbol := .equality, negated := true }

def less : Comparator := { symbol := .less }

/-- `>`, that is, less with the sides swapped. -/
def greater : Comparator := { symbol := .less, reversed := true }

/-- `≤`, that is, not less with the sides swapped. -/
def atMost : Comparator := { symbol := .less, reversed := true, negated := true }

/-- `≥`, that is, not less. -/
def atLeast : Comparator := { symbol := .less, negated := true }

end Comparator

/-! ## Relations -/

/-- A statement about two expressions. -/
structure Relation where
  lhs : Expr
  comparator : Comparator
  rhs : Expr
deriving DecidableEq

namespace Relation

def text (relation : Relation) : String :=
  relation.lhs.text ++ " " ++ relation.comparator.text ++ " " ++ relation.rhs.text

def negate (relation : Relation) : Relation :=
  { relation with comparator := relation.comparator.negate }

end Relation

/-! ## Links -/

/-- How a chain goes on: the expression that comes next, and how what came before compares to it. -/
structure Link where
  comparator : Comparator
  target : Expr
deriving DecidableEq

namespace Link

/-- The relation that the link stands for after the expression `lhs`. -/
def relationFrom (link : Link) (lhs : Expr) : Relation := ⟨lhs, link.comparator, link.target⟩

/-- The text of the link, as in a chain: the comparison and what comes next. -/
def tailText (link : Link) : String := link.comparator.text ++ " " ++ link.target.text

/-- The text of the link alone, with the placeholder on its left. -/
def text (link : Link) : String := Symbol.placeholder.name ++ " " ++ link.tailText

def listText (links : List Link) : String := String.intercalate "\n" (links.map text)

end Link

/-- The link that the relation stands for.  Its left side must be the placeholder. -/
def Relation.toLink (relation : Relation) : Except Diagnostic Link :=
  if relation.lhs = .atom .placeholder then .ok ⟨relation.comparator, relation.rhs⟩
  else .error ⟨.missingPlaceholder relation.lhs.text, []⟩

end Calculation
