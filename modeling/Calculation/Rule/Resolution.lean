import Calculation.Expr.Traversal
import Calculation.Rule
import Calculation.Rule.FreshName

/-!
Resolution: what is left of a rule once one of its disjuncts is known to be false.

A fact refutes a disjunct if the disjunct matches the negation of the fact.  The other disjuncts
then hold for the values that the match gave to the quantified symbols.  Symbols without a value
stay quantified.  Where one of them has the name of a symbol in a value, it is renamed first, since
the rule left would otherwise quantify over what the fact speaks about.
-/

namespace Calculation

/-- The symbols of both sides, those of operators included. -/
def Relation.symbols (relation : Relation) : List Symbol :=
  relation.lhs.symbols ++ relation.rhs.symbols

/-- The names of the symbols in the values that the table gives. -/
def Bindings.namesInValues (bindings : Bindings) : List String :=
  bindings.values.flatMap fun entry => entry.2.symbols.map Symbol.name

namespace Rule

/-- Keeps the symbols that have no value quantified.  Those whose name is in `captured` are bound to
new symbols, whose names are not in `taken`.  The answer holds the symbols quantified from now on
and the table with the new bindings. -/
def keepApart (captured : List String) :
    List Symbol → Bindings → (taken : List String) → List Symbol × Bindings
  | [], bindings, _ => ([], bindings)
  | symbol :: rest, bindings, taken =>
    if bindings.isBound symbol then keepApart captured rest bindings taken
    else if symbol.name ∈ captured then
      let (new, taken) := symbol.fresh taken
      let bindings := (bindings.bind? symbol (.atom new)).getD bindings
      let (quantified, bindings) := keepApart captured rest bindings taken
      (new :: quantified, bindings)
    else
      let (quantified, bindings) := keepApart captured rest bindings taken
      (symbol :: quantified, bindings)

/-- The rule without the disjunct at `index`, for the values in the table. -/
def discharge (rule : Rule) (index : Nat) (bindings : Bindings) : Rule :=
  let captured := bindings.namesInValues
  let taken := (rule.disjuncts.flatMap Relation.symbols).map Symbol.name ++ captured
  let (quantified, bindings) := keepApart captured rule.quantified bindings taken
  ⟨rule.name, quantified, (rule.disjuncts.eraseIdx index).map (·.substitute bindings)⟩

/-- What is left of the rule if the fact refutes its disjunct at `index`. -/
def resolvent? (rule : Rule) (fact : Relation) (index : Nat) (disjunct : Relation) : Option Rule :=
  match disjunct.unify fact true (.unbound rule.quantified) with
  | (some _, bindings) => some (rule.discharge index bindings)
  | (none, _) => none

/-- What is left of the rule for each of its disjuncts that the fact refutes.  Nothing is left of a
simple rule. -/
def resolvents (rule : Rule) (fact : Relation) : List Rule :=
  if rule.disjuncts.length < 2 then []
  else rule.disjuncts.zipIdx.filterMap fun (disjunct, index) => rule.resolvent? fact index disjunct

end Rule

end Calculation
