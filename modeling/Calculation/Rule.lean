import Calculation.Matching

/-!
Rules: named statements that hold for all values of their quantified symbols.

What a rule states is that at least one of several relations holds, its disjuncts.  A rule with one
disjunct is simple, and turns any expression that matches one side of its relation into the other
side.  A rule that holds under conditions has their negations as further disjuncts.
-/

namespace Calculation

/-- A statement about all values of the quantified symbols: one of the disjuncts holds. -/
structure Rule where
  name : String
  quantified : List Symbol
  disjuncts : List Relation
deriving DecidableEq

/-- Which side of a simple rule an expression is matched with. -/
inductive Direction where
  /-- The left side is matched, and the right side takes its place. -/
  | forward
  /-- The right side is matched, and the left side takes its place. -/
  | backward
deriving DecidableEq

namespace Rule

/-- The rule with the disjuncts.  Symbols that are listed more than once are quantified once. -/
def ofDisjuncts (name : String) (quantified : List Symbol) (disjuncts : List Relation) : Rule :=
  ⟨name, quantified.eraseDups, disjuncts⟩

def simple (name : String) (quantified : List Symbol) (relation : Relation) : Rule :=
  ofDisjuncts name quantified [relation]

/-- The rule that the corollary holds wherever all conditions do. -/
def implication (name : String) (quantified : List Symbol) (corollary : Relation)
    (conditions : List Relation) : Rule :=
  ofDisjuncts name quantified (corollary :: conditions.map Relation.negate)

def relation? (rule : Rule) : Option Relation :=
  match rule.disjuncts with
  | [relation] => some relation
  | _ => none

def isSimple (rule : Rule) : Bool := rule.disjuncts.length == 1

def text (rule : Rule) : String := String.intercalate " ∨ " (rule.disjuncts.map Relation.text)

/-- The side of the relation that an expression is matched with, and the one that takes its
place. -/
def sides (direction : Direction) (relation : Relation) : Expr × Expr :=
  match direction with
  | .forward => (relation.lhs, relation.rhs)
  | .backward => (relation.rhs, relation.lhs)

/-- The link from the expression that a simple rule gives in the direction, if it matches. -/
def linkFrom? (rule : Rule) (expr : Expr) (direction : Direction) : Option Link :=
  match rule.relation? with
  | none => none
  | some relation =>
    let (pattern, template) := sides direction relation
    match pattern.unify expr (.unbound rule.quantified) with
    | (some _, bindings) => some ⟨relation.comparator, template.substitute bindings⟩
    | (none, _) => none

end Rule

end Calculation
