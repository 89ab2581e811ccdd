import Calculation.Rule
import Calculation.Proofs.Matching

/-!
What expressions, relations and rules mean.

An interpretation says which value each atom has, what each operator does with values, and which
values each relation sign relates.  A reversed relation swaps its sides, and a negated one says that
it is not so.  A rule holds if for all values of its quantified symbols one of its disjuncts holds.

* `Expr.value_substitute`: putting expressions in the place of atoms is the same as giving the atoms
  their values.
* `Expr.value_congr`: nothing but the atoms of an expression matters for its value.
* `Expr.value_eq_of_fits`: a pattern has the value of the expression that it fits if each of its
  atoms has the value of what it faces.
* `Expr.eq_of_value_free_eq`: where expressions stand for themselves, it has it in no other way.
-/

namespace Calculation

universe u

/-- Values for the atoms, and a reading of the operators and of the relation signs. -/
structure Interpretation (α : Type u) where
  atom : Symbol → α
  unary : Symbol → α → α
  binary : Symbol → α → α → α
  relation : Symbol → α → α → Prop

variable {α : Type u}

namespace Interpretation

/-- The interpretation with other values for all atoms. -/
def withAtoms (I : Interpretation α) (values : Symbol → α) : Interpretation α :=
  { I with atom := values }

/-- The interpretation with other values for the symbols listed. -/
def assign (I : Interpretation α) (symbols : List Symbol) (values : Symbol → α) :
    Interpretation α :=
  I.withAtoms fun symbol => if symbol ∈ symbols then values symbol else I.atom symbol

end Interpretation

/-- The value of the expression. -/
def Expr.value (I : Interpretation α) : Expr → α
  | .atom symbol => I.atom symbol
  | .unary operator operand => I.unary operator (operand.value I)
  | .binary operator lhs rhs => I.binary operator (lhs.value I) (rhs.value I)

/-- Whether values compare in the way that the comparator says. -/
def Comparator.Holds (I : Interpretation α) (comparator : Comparator) (left right : α) : Prop :=
  let related :=
    if comparator.reversed then I.relation comparator.symbol right left
    else I.relation comparator.symbol left right
  if comparator.negated then ¬ related else related

/-- Whether the relation holds between the values of its sides. -/
def Relation.Holds (I : Interpretation α) (relation : Relation) : Prop :=
  relation.comparator.Holds I (relation.lhs.value I) (relation.rhs.value I)

/-- Whether one of the disjuncts holds, whatever the values of the quantified symbols are. -/
def Rule.Holds (I : Interpretation α) (rule : Rule) : Prop :=
  ∀ values : Symbol → α,
    ∃ disjunct ∈ rule.disjuncts, disjunct.Holds (I.assign rule.quantified values)

/-! ## Comparators -/

/-- The comparator that says the same of the sides the other way round. -/
def Comparator.swap (comparator : Comparator) : Comparator :=
  { comparator with reversed := !comparator.reversed }

theorem Comparator.holds_swap (I : Interpretation α) (comparator : Comparator) (left right : α) :
    comparator.swap.Holds I left right ↔ comparator.Holds I right left := by
  cases flag : comparator.reversed <;> simp [Holds, swap, flag]

theorem Comparator.holds_negate (I : Interpretation α) (comparator : Comparator)
    (left right : α) : comparator.negate.Holds I left right ↔ ¬ comparator.Holds I left right := by
  cases flag : comparator.negated <;> simp [Holds, negate, flag]

/-- Values of atoms do not matter for how values compare. -/
theorem Comparator.holds_withAtoms (I : Interpretation α) (values : Symbol → α)
    (comparator : Comparator) (left right : α) :
    comparator.Holds (I.withAtoms values) left right ↔ comparator.Holds I left right :=
  Iff.rfl

/-! ## Values of expressions -/

namespace Expr

/-- An expression in which values were put for symbols has the value that it gets if the symbols
have these values. -/
theorem value_substitute (I : Interpretation α) (bindings : Bindings) (expr : Expr) :
    (expr.substitute bindings).value I =
      expr.value (I.withAtoms fun symbol => ((atom symbol).substitute bindings).value I) := by
  induction expr with
  | atom symbol => rfl
  | unary operator operand ih => rw [substitute, value, ih]; rfl
  | binary operator lhs rhs ihl ihr => rw [substitute, value, ihl, ihr]; rfl

/-- Only the atoms of an expression matter for its value. -/
theorem value_congr (I : Interpretation α) {left right : Symbol → α} {expr : Expr}
    (agree : ∀ symbol ∈ expr.atoms, left symbol = right symbol) :
    expr.value (I.withAtoms left) = expr.value (I.withAtoms right) := by
  induction expr with
  | atom symbol => exact agree symbol (List.mem_singleton_self symbol)
  | unary operator operand ih =>
      rw [value, value, ih agree]
      rfl
  | binary operator lhs rhs ihl ihr =>
      rw [value, value, ihl fun symbol mem => agree symbol (List.mem_append_left _ mem),
        ihr fun symbol mem => agree symbol (List.mem_append_right _ mem)]
      rfl

/-- Symbols that are no atoms of an expression can be assigned any values. -/
theorem value_assign (I : Interpretation α) {symbols : List Symbol} (values : Symbol → α)
    {expr : Expr} (apart : ∀ symbol ∈ symbols, symbol ∉ expr.atoms) :
    expr.value (I.assign symbols values) = expr.value I := by
  have agree : ∀ symbol ∈ expr.atoms,
      (if symbol ∈ symbols then values symbol else I.atom symbol) = I.atom symbol :=
    fun symbol mem => if_neg fun listed => apart symbol listed mem
  exact value_congr I agree

/-- A pattern has the value of the expression that it fits if its atoms have the values of what they
face. -/
theorem value_eq_of_fits (I : Interpretation α) {values : Symbol → α} {pattern ground : Expr}
    (fits : pattern.Fits ground)
    (faced : ∀ entry ∈ pattern.facing ground, values entry.1 = entry.2.value I) :
    pattern.value (I.withAtoms values) = ground.value I := by
  induction pattern generalizing ground with
  | atom symbol => exact faced _ (List.mem_singleton_self _)
  | unary operator operand ih =>
      cases ground with
      | unary groundOperator groundOperand =>
          obtain ⟨rfl, fits⟩ := fits
          rw [value, value, ih fits faced]
          rfl
      | _ => exact fits.elim
  | binary operator lhs rhs ihl ihr =>
      cases ground with
      | binary groundOperator groundLhs groundRhs =>
          obtain ⟨rfl, left, right⟩ := fits
          rw [value, value, ihl left fun entry mem => faced entry (List.mem_append_left _ mem),
            ihr right fun entry mem => faced entry (List.mem_append_right _ mem)]
          rfl
      | _ => exact fits.elim

end Expr

/-! ## Relations -/

namespace Relation

/-- The symbols that stand on either side as atoms. -/
def atoms (relation : Relation) : List Symbol := relation.lhs.atoms ++ relation.rhs.atoms

/-- The atoms of the template, each with the part of the other relation that it faces. -/
def facing (template source : Relation) : List (Symbol × Expr) :=
  template.lhs.facing source.lhs ++ template.rhs.facing source.rhs

/-- Both sides of the template have the operators of the sides of the other relation. -/
def Fits (template source : Relation) : Prop :=
  template.lhs.Fits source.lhs ∧ template.rhs.Fits source.rhs

theorem holds_negate (I : Interpretation α) (relation : Relation) :
    relation.negate.Holds I ↔ ¬ relation.Holds I :=
  Comparator.holds_negate I relation.comparator _ _

theorem holds_substitute (I : Interpretation α) (bindings : Bindings) (relation : Relation) :
    (relation.substitute bindings).Holds I ↔
      relation.Holds
        (I.withAtoms fun symbol => ((Expr.atom symbol).substitute bindings).value I) := by
  rw [Holds, Holds, substitute, Comparator.holds_withAtoms, Expr.value_substitute,
    Expr.value_substitute]

/-- Only the atoms of a relation matter for whether it holds. -/
theorem holds_congr (I : Interpretation α) {left right : Symbol → α} {relation : Relation}
    (agree : ∀ symbol ∈ relation.atoms, left symbol = right symbol) :
    relation.Holds (I.withAtoms left) ↔ relation.Holds (I.withAtoms right) := by
  rw [Holds, Holds, Comparator.holds_withAtoms, Comparator.holds_withAtoms,
    Expr.value_congr I fun symbol mem => agree symbol (List.mem_append_left _ mem),
    Expr.value_congr I fun symbol mem => agree symbol (List.mem_append_right _ mem)]

end Relation

/-! ## Where expressions stand for themselves -/

/-- The interpretation of expressions as themselves, with a reading of the relation signs. -/
def Interpretation.free (relation : Symbol → Expr → Expr → Prop) : Interpretation Expr where
  atom := .atom
  unary := .unary
  binary := .binary
  relation := relation

namespace Expr

@[simp] theorem value_free (relation : Symbol → Expr → Expr → Prop) (expr : Expr) :
    expr.value (.free relation) = expr := by
  induction expr with
  | atom symbol => rfl
  | unary operator operand ih => rw [value, ih]; rfl
  | binary operator lhs rhs ihl ihr => rw [value, ihl, ihr]; rfl

/-- A pattern stands for the expression that it fits only if its atoms stand for what they face. -/
theorem eq_of_value_free_eq {relation : Symbol → Expr → Expr → Prop} {values : Symbol → Expr}
    {pattern ground : Expr} (fits : pattern.Fits ground)
    (same : pattern.value ((Interpretation.free relation).withAtoms values) = ground) :
    ∀ entry ∈ pattern.facing ground, values entry.1 = entry.2 := by
  induction pattern generalizing ground with
  | atom symbol =>
      intro entry mem
      cases List.mem_singleton.1 mem
      exact same
  | unary operator operand ih =>
      cases ground with
      | unary groundOperator groundOperand =>
          obtain ⟨-, operands⟩ := unary.inj same
          exact ih fits.2 operands
      | _ => exact fits.elim
  | binary operator lhs rhs ihl ihr =>
      cases ground with
      | binary groundOperator groundLhs groundRhs =>
          obtain ⟨-, left, right⟩ := binary.inj same
          intro entry mem
          rcases List.mem_append.1 mem with onLeft | onRight
          · exact ihl fits.2.1 left entry onLeft
          · exact ihr fits.2.2 right entry onRight
      | _ => exact fits.elim

end Expr

end Calculation
