import Calculation.Relation

/-!
What the quantified symbols of a rule stand for.

A table of bindings knows which symbols are quantified, and gives each of them at most one value,
for good: a symbol that has a value is never bound again, not even to the same value.  Substituting
puts the values in the place of the symbols, all at once, so what a value contains is left alone.
-/

namespace Calculation

/-- The quantified symbols, and the values of those that have one. -/
structure Bindings where
  quantified : List Symbol
  /-- The symbols that are bound, the one bound last first. -/
  values : List (Symbol × Expr)
  mem_quantified : ∀ entry ∈ values, entry.1 ∈ quantified
  nodup : (values.map Prod.fst).Nodup

namespace Bindings

/-- The table in which the symbols are quantified and none is bound. -/
def unbound (quantified : List Symbol) : Bindings := ⟨quantified, [], by simp, by simp⟩

def isQuantified (bindings : Bindings) (symbol : Symbol) : Bool := symbol ∈ bindings.quantified

def get? (bindings : Bindings) (symbol : Symbol) : Option Expr :=
  (bindings.values.find? (·.1 = symbol)).map Prod.snd

def isBound (bindings : Bindings) (symbol : Symbol) : Bool := (bindings.get? symbol).isSome

/-- A symbol without a value is none of those bound. -/
theorem not_mem_of_get?_eq_none {bindings : Bindings} {symbol : Symbol}
    (free : bindings.get? symbol = none) : symbol ∉ bindings.values.map Prod.fst := by
  simp only [get?, Option.map_eq_none_iff, List.find?_eq_none, decide_eq_true_eq] at free
  simp only [List.mem_map, not_exists, not_and]
  exact free

/-- Gives the symbol a value, if it is quantified and has none. -/
def bind? (bindings : Bindings) (symbol : Symbol) (value : Expr) : Option Bindings :=
  if able : symbol ∈ bindings.quantified ∧ bindings.get? symbol = none then
    some {
      quantified := bindings.quantified
      values := (symbol, value) :: bindings.values
      mem_quantified := by
        simp only [List.forall_mem_cons]
        exact ⟨able.1, bindings.mem_quantified⟩
      nodup := by
        simp only [List.map_cons, List.nodup_cons]
        exact ⟨not_mem_of_get?_eq_none able.2, bindings.nodup⟩ }
  else
    none

end Bindings

/-! ## Substitution -/

/-- The expression with every bound atom replaced by its value. -/
def Expr.substitute (bindings : Bindings) : Expr → Expr
  | .atom symbol => (bindings.get? symbol).getD (.atom symbol)
  | .unary operator operand => .unary operator (operand.substitute bindings)
  | .binary operator lhs rhs =>
    .binary operator (lhs.substitute bindings) (rhs.substitute bindings)

/-- The relation with every bound atom of its sides replaced by its value. -/
def Relation.substitute (bindings : Bindings) (relation : Relation) : Relation :=
  { relation with
    lhs := relation.lhs.substitute bindings
    rhs := relation.rhs.substitute bindings }

end Calculation
