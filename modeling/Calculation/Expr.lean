import Calculation.Symbol

/-!
Expressions: symbols applied to at most two operands.

An atom is a symbol alone, a variable or a constant, and no difference is made between the two: it
is a rule that says over which symbols it is quantified.  Expressions are equal if they are built
alike from equal symbols.  Their text puts every operation in parentheses, so it needs no
precedences.
-/

namespace Calculation

/-- Where an expression stands: as the left operand, or as the right one of two.  An only operand
counts as a left one, and so does an expression that is no operand at all. -/
inductive Side where
  | left | right
deriving DecidableEq

/-- An expression. -/
inductive Expr where
  | atom (symbol : Symbol)
  | unary (operator : Symbol) (operand : Expr)
  | binary (operator : Symbol) (lhs rhs : Expr)
deriving DecidableEq

namespace Expr

instance : Add Expr := ⟨.binary .sum⟩

instance : Sub Expr := ⟨.binary .minus⟩

instance : Mul Expr := ⟨.binary .product⟩

instance : Div Expr := ⟨.binary .quotient⟩

instance : Neg Expr := ⟨.unary .minus⟩

/-- The atom whose symbol has the name and no other texts. -/
def named (name : String) : Expr := .atom { name := name }

def symbol : Expr → Symbol
  | atom symbol => symbol
  | unary operator _ => operator
  | binary operator _ _ => operator

def asAtom? : Expr → Option Symbol
  | atom symbol => some symbol
  | _ => none

/-- The operands of the root, from left to right. -/
def operands : Expr → List Expr
  | atom _ => []
  | unary _ operand => [operand]
  | binary _ lhs rhs => [lhs, rhs]

/-- The expression with each operand of the root replaced by what `f` makes of it. -/
def mapOperands (f : Expr → Expr) : Expr → Expr
  | atom symbol => .atom symbol
  | unary operator operand => .unary operator (f operand)
  | binary operator lhs rhs => .binary operator (f lhs) (f rhs)

/-- How many subexpressions the expression has, itself included. -/
def size : Expr → Nat
  | atom _ => 1
  | unary _ operand => operand.size + 1
  | binary _ lhs rhs => lhs.size + rhs.size + 1

def text : Expr → String
  | atom symbol => symbol.name
  | unary operator operand => operator.name ++ "(" ++ operand.text ++ ")"
  | binary operator lhs rhs => "(" ++ lhs.text ++ " " ++ operator.name ++ " " ++ rhs.text ++ ")"

end Expr

end Calculation
