import Calculation.Rule
import Calculation.Source.Parser

/-!
What a source text stands for.

A tree stands for an expression, a comparison for a relation and a declaration for a rule.  The
parentheses of a tree are gone in its expression, since the structure says the same.  A declaration
is refused if it quantifies over a symbol twice, or else over one that it does not mention.
-/

namespace Calculation

namespace Source

/-! ## Expressions and relations -/

def UnaryOperator.symbol : UnaryOperator → Symbol
  | minus => .minus

def BinaryOperator.symbol : BinaryOperator → Symbol
  | times => .product
  | dividedBy => .quotient
  | plus => .sum
  | minus => .minus

/-- How the sides of a relation with the operator compare. -/
def RelationalOperator.comparator : RelationalOperator → Comparator
  | equal => .equal
  | notEqual => .notEqual
  | less => .less
  | greater => .greater
  | atMost => .atMost
  | atLeast => .atLeast

def Atom.symbol (atom : Atom) : Symbol := { name := atom.name }

def Tree.toExpr : Tree → Expr
  | .atom leaf => .atom leaf.symbol
  | .paren inner _ => inner.toExpr
  | .unary operator operand _ => .unary operator.kind.symbol operand.toExpr
  | .binary lhs operator rhs _ => .binary operator.kind.symbol lhs.toExpr rhs.toExpr

def Comparison.toRelation (comparison : Comparison) : Relation :=
  ⟨comparison.lhs.toExpr, comparison.operator.kind.comparator, comparison.rhs.toExpr⟩

/-! ## Rules -/

/-- The first atom whose name one of those before it has too, with the first atom of that name.
The atoms in `seen` come before the list. -/
def repeated? (seen : List Atom) : List Atom → Option (Atom × Atom)
  | [] => none
  | atom :: rest =>
    match seen.find? (·.name = atom.name) with
    | some first => some (first, atom)
    | none => repeated? (seen ++ [atom]) rest

namespace Declaration

def atoms (declaration : Declaration) : List Atom :=
  (declaration.corollary :: declaration.conditions).flatMap Comparison.atoms

/-- The first quantified atom whose name none of the relations mentions. -/
def unused? (declaration : Declaration) : Option Atom :=
  declaration.quantified.find? fun quantified =>
    !declaration.atoms.any fun atom => atom.name = quantified.name

def toRule (declaration : Declaration) : Except Diagnostic Rule :=
  match repeated? [] declaration.quantified with
  | some (first, again) => .error ⟨.duplicateQuantifier again.name, [first.span, again.span]⟩
  | none =>
    match declaration.unused? with
    | some unused => .error (.pointingAt unused.span (.unusedQuantifier unused.name))
    | none =>
      .ok (.implication declaration.name.name (declaration.quantified.map Atom.symbol)
        declaration.corollary.toRelation (declaration.conditions.map Comparison.toRelation))

end Declaration

end Source

/-! ## Whole sources -/

def Expr.parse (source : String) : Except Diagnostic Expr :=
  (Source.parse Source.expression source).map Source.Tree.toExpr

def Relation.parse (source : String) : Except Diagnostic Relation :=
  (Source.parse Source.comparison source).map Source.Comparison.toRelation

def Rule.parse (source : String) : Except Diagnostic Rule :=
  (Source.parse Source.declaration source).bind Source.Declaration.toRule

end Calculation
