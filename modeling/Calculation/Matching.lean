import Calculation.Bindings

/-!
Matching patterns: which values of the quantified symbols make a pattern equal to an expression.

Only the atoms of the pattern that are quantified can be given values, and the pattern is gone
through from left to right.  An atom that meets itself matches as it is and stays unbound.  Since
no symbol is bound twice, a quantified symbol may face at most one expression other than itself.

A match that fails keeps what it bound before it failed, so a caller that tries again starts from a
table of its own.
-/

namespace Calculation

namespace Expr

/-- Whether the pattern matches the expression, and the table with the values found. -/
def matches? : (pattern ground : Expr) → Bindings → Bool × Bindings
  | .atom symbol, ground, bindings =>
    if ground = .atom symbol then (true, bindings)
    else
      match bindings.bind? symbol ground with
      | some extended => (true, extended)
      | none => (false, bindings)
  | .unary operator operand, .unary groundOperator groundOperand, bindings =>
    if operator = groundOperator then operand.matches? groundOperand bindings
    else (false, bindings)
  | .binary operator lhs rhs, .binary groundOperator groundLhs groundRhs, bindings =>
    if operator = groundOperator then
      match lhs.matches? groundLhs bindings with
      | (true, extended) => rhs.matches? groundRhs extended
      | (false, extended) => (false, extended)
    else (false, bindings)
  | .unary _ _, _, bindings => (false, bindings)
  | .binary _ _ _, _, bindings => (false, bindings)

/-- Matches the pattern against the expression.  The answer is the expression itself. -/
def unify (pattern ground : Expr) (bindings : Bindings) : Option Expr × Bindings :=
  match pattern.matches? ground bindings with
  | (true, extended) => (some ground, extended)
  | (false, extended) => (none, extended)

end Expr

/-- Whether a relation with the first comparator can match one with the second, or, if `refuting`,
the negation of such a relation. -/
def Comparator.agrees (template source : Comparator) (refuting : Bool) : Bool :=
  template.symbol = source.symbol && template.reversed == source.reversed &&
    (template.negated ^^ source.negated) == refuting

/-- Matches the template against the relation, or, if `refuting`, against its negation.  Both sides
are matched with one table, the left one first.  The answer is the relation itself. -/
def Relation.unify (template source : Relation) (refuting : Bool) (bindings : Bindings) :
    Option Relation × Bindings :=
  if template.comparator.agrees source.comparator refuting then
    match template.lhs.matches? source.lhs bindings with
    | (true, extended) =>
      match template.rhs.matches? source.rhs extended with
      | (true, extended) => (some source, extended)
      | (false, extended) => (none, extended)
    | (false, extended) => (none, extended)
  else (none, bindings)

end Calculation
