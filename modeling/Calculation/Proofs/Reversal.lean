import Calculation.Proofs.Application
import Calculation.Proofs.Unification

/-!
Rewrites that can be undone.

A rule is linear if each of its symbols stands once on either side.  Then what a side was matched
with can be read off the other side, after the values have been put in: every symbol faces its value
there, or itself if it has none, and nothing else (`Expr.exists_unify_substitute`).  It does not
matter whether the values mention symbols of the rule themselves.

* `Rule.linkFrom?_eq_some_iff_opposite`: a linear rule leads from one expression to another exactly
  if in the opposite direction it leads back.
-/

namespace Calculation

namespace Expr

variable {pattern ground : Expr} {symbol : Symbol}

/-! ## Matching what values were put into -/

theorem fits_substitute (pattern : Expr) (bindings : Bindings) :
    pattern.Fits (pattern.substitute bindings) := by
  induction pattern with
  | atom symbol => trivial
  | unary operator operand ih => exact ⟨rfl, ih⟩
  | binary operator lhs rhs ihl ihr => exact ⟨rfl, ihl, ihr⟩

/-- Every atom faces what is put in its place. -/
theorem facing_substitute (pattern : Expr) (bindings : Bindings) :
    pattern.facing (pattern.substitute bindings) =
      pattern.atoms.map fun symbol => (symbol, (atom symbol).substitute bindings) := by
  induction pattern with
  | atom symbol => rfl
  | unary operator operand ih => exact ih
  | binary operator lhs rhs ihl ihr => rw [substitute, facing, ihl, ihr, atoms, List.map_append]

theorem map_fst_facing (fits : pattern.Fits ground) :
    (pattern.facing ground).map Prod.fst = pattern.atoms := by
  induction pattern generalizing ground with
  | atom symbol => rfl
  | unary operator operand ih =>
      cases ground with
      | unary groundOperator groundOperand => exact ih fits.2
      | _ => exact fits.elim
  | binary operator lhs rhs ihl ihr =>
      cases ground with
      | binary groundOperator groundLhs groundRhs =>
          rw [facing, List.map_append, ihl fits.2.1, ihr fits.2.2, atoms]
      | _ => exact fits.elim

/-- A symbol that stands once in the pattern faces one part of the expression. -/
theorem eq_of_mem_facing (fits : pattern.Fits ground) (once : pattern.atoms.count symbol = 1)
    {part other : Expr} (faces : (symbol, part) ∈ pattern.facing ground)
    (faces' : (symbol, other) ∈ pattern.facing ground) : part = other := by
  rw [← map_fst_facing fits, List.count, List.countP_map, List.countP_eq_length_filter] at once
  obtain ⟨entry, only⟩ := List.length_eq_one_iff.1 once
  have alone : ∀ {part}, (symbol, part) ∈ pattern.facing ground → (symbol, part) = entry := by
    intro part faces
    rw [← List.mem_singleton, ← only, List.mem_filter]
    exact ⟨faces, beq_self_eq_true symbol⟩
  exact congrArg Prod.snd ((alone faces).trans (alone faces').symm)

/-- Nothing matters of a table but what is put in the place of the atoms. -/
theorem substitute_congr {expr : Expr} {bindings bindings' : Bindings}
    (same : ∀ symbol ∈ expr.atoms,
      (atom symbol).substitute bindings = (atom symbol).substitute bindings') :
    expr.substitute bindings = expr.substitute bindings' := by
  induction expr with
  | atom symbol => exact same symbol (List.mem_singleton_self symbol)
  | unary operator operand ih => rw [substitute, substitute, ih same]
  | binary operator lhs rhs ihl ihr =>
      rw [substitute, substitute, ihl fun symbol mem => same symbol (List.mem_append_left _ mem),
        ihr fun symbol mem => same symbol (List.mem_append_right _ mem)]

/-- A pattern in which no quantified symbol stands twice matches what it becomes when values are put
in, and finds the values again. -/
theorem exists_unify_substitute (pattern : Expr) (bindings : Bindings)
    (once : ∀ symbol ∈ bindings.quantified, pattern.atoms.count symbol ≤ 1) :
    ∃ found, pattern.unify (pattern.substitute bindings) (.unbound bindings.quantified) =
        (some (pattern.substitute bindings), found) ∧
      ∀ symbol ∈ pattern.atoms,
        (atom symbol).substitute found = (atom symbol).substitute bindings := by
  have fits := fits_substitute pattern bindings
  have faced : ∀ {symbol value}, (symbol, value) ∈ pattern.facing (pattern.substitute bindings) →
      value = (atom symbol).substitute bindings := by
    intro symbol value faces
    rw [facing_substitute] at faces
    obtain ⟨own, -, same⟩ := List.mem_map.1 faces
    cases same
    rfl
  -- what is put in the place of a symbol can only differ from it if the symbol has a value
  have listed : ∀ entry ∈ pattern.demands (pattern.substitute bindings),
      entry.1 ∈ bindings.quantified := by
    intro entry mem
    obtain ⟨faces, other⟩ := mem_demands_iff.1 mem
    cases value : bindings.get? entry.1 with
    | some value => exact Bindings.mem_quantified_of_get? value
    | none =>
        refine (other ?_).elim
        rw [faced faces, substitute, value]
        rfl
  have nodup : ((pattern.demands (pattern.substitute bindings)).map Prod.fst).Nodup := by
    refine List.nodup_iff_count_le_one.2 fun symbol => ?_
    by_cases mem : symbol ∈ (pattern.demands (pattern.substitute bindings)).map Prod.fst
    · obtain ⟨entry, demanded, rfl⟩ := List.mem_map.1 mem
      have sublist : ((pattern.demands (pattern.substitute bindings)).map Prod.fst).Sublist
          pattern.atoms := map_fst_facing fits ▸ List.filter_sublist.map Prod.fst
      exact Nat.le_trans (sublist.count_le entry.1) (once entry.1 (listed entry demanded))
    · rw [List.count_eq_zero_of_not_mem mem]
      exact Nat.zero_le 1
  have free : ∀ entry ∈ pattern.demands (pattern.substitute bindings),
      entry.1 ∈ (Bindings.unbound bindings.quantified).quantified ∧
        (Bindings.unbound bindings.quantified).get? entry.1 = none :=
    fun entry mem => ⟨listed entry mem, rfl⟩
  obtain ⟨found, bound⟩ := Bindings.exists_bindAll?_iff.2 ⟨nodup, free⟩
  have matched : pattern.unify (pattern.substitute bindings) (.unbound bindings.quantified) =
      (some (pattern.substitute bindings), found) := by
    rw [unify, matches?_eq_true_iff.2 ⟨fits, bound⟩]
  refine ⟨found, matched, fun symbol mem => ?_⟩
  have faces : (symbol, (atom symbol).substitute bindings) ∈
      pattern.facing (pattern.substitute bindings) := by
    rw [facing_substitute]
    exact List.mem_map_of_mem mem
  by_cases itself : (atom symbol).substitute bindings = .atom symbol
  · cases value : found.get? symbol with
    | none =>
        rw [itself, substitute, value]
        rfl
    | some value =>
        obtain ⟨facesValue, other⟩ := (get?_eq_some_iff_of_unify matched).1 value
        exact (other ((faced facesValue).trans itself)).elim
  · rw [substitute, (get?_eq_some_iff_of_unify matched).2 ⟨faces, itself⟩]
    rfl

end Expr

/-- The other direction. -/
def Direction.opposite : Direction → Direction
  | .forward => .backward
  | .backward => .forward

namespace Rule

/-- A simple rule in which every quantified symbol stands once on either side. -/
def Linear (rule : Rule) : Prop :=
  ∃ relation, rule.disjuncts = [relation] ∧ ∀ symbol ∈ rule.quantified,
    relation.lhs.atoms.count symbol = 1 ∧ relation.rhs.atoms.count symbol = 1

variable {rule : Rule} {expr target : Expr} {comparator : Comparator} {direction : Direction}

theorem sides_opposite {relation : Relation} {pattern template : Expr}
    (chosen : sides direction relation = (pattern, template)) :
    sides direction.opposite relation = (template, pattern) := by
  cases direction <;> cases chosen <;> rfl

/-- A symbol of a linear rule stands once on the side that is matched, and once on the other. -/
theorem Linear.exists_sides (linear : rule.Linear) (direction : Direction) :
    ∃ relation pattern template, rule.disjuncts = [relation] ∧
      sides direction relation = (pattern, template) ∧ ∀ symbol ∈ rule.quantified,
        pattern.atoms.count symbol = 1 ∧ template.atoms.count symbol = 1 := by
  obtain ⟨relation, simple, once⟩ := linear
  refine ⟨relation, _, _, simple, rfl, fun symbol listed => ?_⟩
  cases direction with
  | forward => exact once symbol listed
  | backward => exact (once symbol listed).symm

/-- A link that a linear rule gives leads to an expression from which it leads back. -/
theorem Linear.leads_back (linear : rule.Linear)
    (given : rule.linkFrom? expr direction = some ⟨comparator, target⟩) :
    rule.linkFrom? target direction.opposite = some ⟨comparator, expr⟩ := by
  obtain ⟨relation, pattern, template, simple, chosen, once⟩ := linear.exists_sides direction
  obtain ⟨relation', bindings, simple', matched, same⟩ := exists_of_linkFrom? given
  cases (List.cons.inj (simple.symm.trans simple')).1
  rw [chosen] at matched same
  cases same
  obtain ⟨fits, quantified, -⟩ := Expr.of_unify matched
  have steady : pattern.Steady expr := by
    intro symbol part itself faces
    by_cases listed : symbol ∈ rule.quantified
    · exact Expr.eq_of_mem_facing fits (once symbol listed).1 faces itself
    · by_contra other
      have bound := (Expr.get?_eq_some_iff_of_unify matched).2 ⟨faces, other⟩
      exact listed (quantified ▸ Bindings.mem_quantified_of_get? bound)
  obtain ⟨found, back, values⟩ := Expr.exists_unify_substitute template bindings
    fun symbol listed => Nat.le_of_eq (once symbol (quantified ▸ listed)).2
  obtain ⟨-, quantified', -⟩ := Expr.of_unify back
  have restored : pattern.substitute found = expr := by
    calc pattern.substitute found
      _ = pattern.substitute bindings := by
        refine Expr.substitute_congr fun symbol mem => ?_
        by_cases listed : symbol ∈ bindings.quantified
        · have stands := (once symbol (quantified ▸ listed)).2
          exact values symbol (List.count_pos_iff.1 (stands ▸ Nat.zero_lt_one))
        · have constant := Bindings.get?_eq_none_of_not_mem listed
          rw [← quantified'] at listed
          rw [Expr.substitute, Expr.substitute, constant,
            Bindings.get?_eq_none_of_not_mem listed]
      _ = expr := Expr.substitute_eq_of_steady matched steady
  rw [quantified] at back
  rw [linkFrom?_of_unify simple (sides_opposite chosen) back, restored]

/-- In a linear rule one direction undoes the other: the rule leads from an expression to its target
exactly if in the opposite direction it leads from the target to the expression.  The expressions
may mention symbols of the rule. -/
theorem linkFrom?_eq_some_iff_opposite (linear : rule.Linear) (expr target : Expr)
    (comparator : Comparator) (direction : Direction) :
    rule.linkFrom? expr direction = some ⟨comparator, target⟩ ↔
      rule.linkFrom? target direction.opposite = some ⟨comparator, expr⟩ := by
  refine ⟨linear.leads_back, fun given => ?_⟩
  have back := linear.leads_back given
  cases direction <;> exact back

/-- Associativity leads from `(y ⋅ x) ⋅ (x ⋅ y)` to `y ⋅ (x ⋅ (x ⋅ y))` and back, although its own
variables stand there in other places. -/
theorem linkFrom?_eq_some_iff_opposite_associativity :
    let x : Expr := .named "x"
    let y : Expr := .named "y"
    let z : Expr := .named "z"
    let rule : Rule := .simple "associativity" [{ name := "x" }, { name := "y" }, { name := "z" }]
      ⟨(x * y) * z, .equal, x * (y * z)⟩
    rule.Linear ∧ rule.linkFrom? ((y * x) * (x * y)) .forward =
        some ⟨.equal, y * (x * (x * y))⟩ ∧
      rule.linkFrom? (y * (x * (x * y))) .backward = some ⟨.equal, (y * x) * (x * y)⟩ := by
  intro x y z rule
  have linear : rule.Linear := ⟨⟨(x * y) * z, .equal, x * (y * z)⟩, rfl, by decide⟩
  have forth : rule.linkFrom? ((y * x) * (x * y)) .forward = some ⟨.equal, y * (x * (x * y))⟩ := by
    decide
  exact ⟨linear, forth, (linkFrom?_eq_some_iff_opposite linear _ _ _ _).1 forth⟩

end Rule

end Calculation
