import Calculation.Rule.Resolution

/-!
Theories: the rules that a chain may use, in the order in which they were added.

The order shows: what the rules suggest for an expression is listed rule by rule.
-/

namespace Calculation

/-- The links from the expression that the rule gives, forward before backward. -/
def Rule.suggestions (rule : Rule) (expr : Expr) : List Link :=
  [Direction.forward, Direction.backward].filterMap (rule.linkFrom? expr)

/-- A list of rules. -/
structure Theory where
  rules : List Rule := []
deriving DecidableEq

namespace Theory

def add (theory : Theory) (rule : Rule) : Theory := ⟨theory.rules ++ [rule]⟩

def find? (theory : Theory) (name : String) : Option Rule := theory.rules.find? (·.name = name)

/-- The links from the expression that the simple rules give. -/
def suggestions (theory : Theory) (expr : Expr) : List Link :=
  (theory.rules.filter Rule.isSimple).flatMap (·.suggestions expr)

/-- The same as relations with the expression on their left. -/
def suggestedRelations (theory : Theory) (expr : Expr) : List Relation :=
  (theory.suggestions expr).map (·.relationFrom expr)

/-- What is left of the rules, given the fact.  Rules that it refutes no disjunct of are dropped. -/
def resolve (theory : Theory) (fact : Relation) : Theory :=
  ⟨theory.rules.flatMap (·.resolvents fact)⟩

def text (theory : Theory) : String := String.intercalate "\n" (theory.rules.map Rule.text)

end Theory

end Calculation
