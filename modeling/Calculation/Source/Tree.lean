import Calculation.Source.Token

/-!
What a source text says, with the place of every piece.

A `Tree` is an expression as it was written, parentheses included, a `Comparison` two trees with a
relational operator between them, and a `Declaration` a rule.  Every piece holds the region of the
source that it was read from, so that later stages can point at it.
-/

namespace Calculation.Source

/-! ## Operators -/

/-- The operators that stand before one operand. -/
inductive UnaryOperator where
  | minus
deriving DecidableEq

/-- The operators that stand between two operands. -/
inductive BinaryOperator where
  | times | dividedBy | plus | minus
deriving DecidableEq

/-- How tightly a binary operator binds: products before sums. -/
inductive Precedence where
  | sum | product
deriving DecidableEq

def BinaryOperator.precedence : BinaryOperator → Precedence
  | times | dividedBy => .product
  | plus | minus => .sum

/-- The operators that stand between the two sides of a relation. -/
inductive RelationalOperator where
  | equal | notEqual | less | greater | atMost | atLeast
deriving DecidableEq

namespace TokenKind

/-- The unary operator that tokens of the kind stand for. -/
def unaryOperator? : TokenKind → Option UnaryOperator
  | minus => some .minus
  | _ => none

/-- The binary operator that tokens of the kind stand for. -/
def binaryOperator? : TokenKind → Option BinaryOperator
  | times => some .times
  | dividedBy => some .dividedBy
  | plus => some .plus
  | minus => some .minus
  | _ => none

/-- The relational operator that tokens of the kind stand for. -/
def relationalOperator? : TokenKind → Option RelationalOperator
  | equal => some .equal
  | notEqual => some .notEqual
  | less => some .less
  | greater => some .greater
  | atMost => some .atMost
  | atLeast => some .atLeast
  | _ => none

end TokenKind

/-- An operator with its place in the source. -/
structure Placed (Operator : Type) where
  kind : Operator
  span : Span
deriving DecidableEq

/-! ## Expressions, relations and rules -/

/-- A name or a numeral.  Nothing is ever computed with numerals, so both are but names. -/
structure Atom where
  name : String
  span : Span
deriving DecidableEq

/-- An expression as it was written. -/
inductive Tree where
  | atom (leaf : Atom)
  /-- An expression between parentheses, which the span takes in. -/
  | paren (inner : Tree) (span : Span)
  | unary (operator : Placed UnaryOperator) (operand : Tree) (span : Span)
  | binary (lhs : Tree) (operator : Placed BinaryOperator) (rhs : Tree) (span : Span)
deriving DecidableEq

namespace Tree

def span : Tree → Span
  | .atom leaf => leaf.span
  | .paren _ span => span
  | .unary _ _ span => span
  | .binary _ _ _ span => span

def atoms : Tree → List Atom
  | .atom leaf => [leaf]
  | .paren inner _ => inner.atoms
  | .unary _ operand _ => operand.atoms
  | .binary lhs _ rhs _ => lhs.atoms ++ rhs.atoms

end Tree

/-- A relation as it was written. -/
structure Comparison where
  lhs : Tree
  operator : Placed RelationalOperator
  rhs : Tree
  span : Span
deriving DecidableEq

def Comparison.atoms (comparison : Comparison) : List Atom :=
  comparison.lhs.atoms ++ comparison.rhs.atoms

/-- A rule as it was written: its name, the symbols it is quantified over, the relation it asserts
and the conditions under which it does. -/
structure Declaration where
  name : Atom
  quantified : List Atom
  corollary : Comparison
  conditions : List Comparison
  span : Span
deriving DecidableEq

def Declaration.keyword : String := "rule"

end Calculation.Source
