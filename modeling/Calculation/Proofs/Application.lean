import Calculation.Proofs.Interpretation

/-!
Which links that a rule suggests are true.

A simple rule holds for what its symbols were bound to (`Rule.exists_holds_substitute`), so the
relation that is left has the matched expression on the side that was matched.  Forward that is the
left side, where a link has it as well.  Backward it is the right side, while the link has the
expression on its left and keeps the comparator of the rule (`Rule.holds_of_linkFrom?`).

* `Rule.links_hold_iff_symmetric`: links given forward hold, links given backward hold with their
  comparator swapped, and as they stand they hold exactly for relation signs that read the same in
  both directions.
* `Rule.not_forall_holds_of_linkFrom?`: `x < x + 1` suggests `a + 1 < a`.
-/

namespace Calculation

universe u

variable {α : Type u}

/-- The sign relates values of expressions in both directions, if it relates them in one. -/
def Interpretation.Symmetric (I : Interpretation α) (sign : Symbol) : Prop :=
  ∀ lhs rhs : Expr,
    I.relation sign (lhs.value I) (rhs.value I) → I.relation sign (rhs.value I) (lhs.value I)

/-- With a sign that reads the same in both directions, sides can be swapped. -/
theorem Interpretation.Symmetric.holds_comm {I : Interpretation α} {comparator : Comparator}
    (symmetric : I.Symmetric comparator.symbol) (lhs rhs : Expr) :
    (Relation.mk lhs comparator rhs).Holds I ↔ (Relation.mk rhs comparator lhs).Holds I := by
  have related : I.relation comparator.symbol (lhs.value I) (rhs.value I) ↔
      I.relation comparator.symbol (rhs.value I) (lhs.value I) :=
    ⟨symmetric lhs rhs, symmetric rhs lhs⟩
  simp only [Relation.Holds, Comparator.Holds, related]

namespace Rule

/-- No quantified symbol of the rule stands in the expression as an atom. -/
def Apart (rule : Rule) (expr : Expr) : Prop := ∀ symbol ∈ rule.quantified, symbol ∉ expr.atoms

/-- A rule that holds does so for any values that its symbols are bound to. -/
theorem exists_holds_substitute {I : Interpretation α} {rule : Rule} (holds : rule.Holds I)
    {bindings : Bindings} (same : bindings.quantified = rule.quantified) :
    ∃ disjunct ∈ rule.disjuncts, (disjunct.substitute bindings).Holds I := by
  obtain ⟨disjunct, mem, holds⟩ :=
    holds fun symbol => ((Expr.atom symbol).substitute bindings).value I
  refine ⟨disjunct, mem, (Relation.holds_substitute I bindings disjunct).2 ?_⟩
  refine (Relation.holds_congr I fun symbol _ => ?_).1 holds
  by_cases listed : symbol ∈ rule.quantified
  · rw [if_pos listed]
  · have unlisted : symbol ∉ bindings.quantified := by
      rw [same]
      exact listed
    rw [if_neg listed, Expr.substitute, Bindings.get?_eq_none_of_not_mem unlisted]
    rfl

/-- A link comes from the only disjunct of a rule, one side of which matches the expression. -/
theorem exists_of_linkFrom? {rule : Rule} {expr : Expr} {direction : Direction} {link : Link}
    (given : rule.linkFrom? expr direction = some link) :
    ∃ relation bindings, rule.disjuncts = [relation] ∧
      (sides direction relation).1.unify expr (.unbound rule.quantified) =
        (some expr, bindings) ∧
      link = ⟨relation.comparator, (sides direction relation).2.substitute bindings⟩ := by
  unfold linkFrom? relation? at given
  split at given
  · cases given
  · rename_i relation only
    split at only
    · rename_i disjunct disjuncts
      cases only
      dsimp only at given
      split at given
      · rename_i answer bindings matched
        obtain rfl := (Expr.of_unify matched).2.2.2
        exact ⟨relation, bindings, disjuncts, matched, (Option.some.inj given).symm⟩
      · cases given
    · cases only

/-- A simple rule gives a link from every expression that the side matches. -/
theorem linkFrom?_of_unify {rule : Rule} {relation : Relation}
    (simple : rule.disjuncts = [relation]) {expr answer pattern template : Expr}
    {direction : Direction} (chosen : sides direction relation = (pattern, template))
    {bindings : Bindings}
    (matched : pattern.unify expr (.unbound rule.quantified) = (some answer, bindings)) :
    rule.linkFrom? expr direction = some ⟨relation.comparator, template.substitute bindings⟩ := by
  simp only [linkFrom?, relation?, simple, chosen, matched]

/-- The relation of a rule holds between the expression and the target of a link, with the
expression on the side that was matched. -/
theorem holds_of_linkFrom? {I : Interpretation α} {rule : Rule} {expr : Expr}
    {direction : Direction} {link : Link} (apart : rule.Apart expr) (holds : rule.Holds I)
    (given : rule.linkFrom? expr direction = some link) :
    match direction with
    | .forward => (Relation.mk expr link.comparator link.target).Holds I
    | .backward => (Relation.mk link.target link.comparator expr).Holds I := by
  obtain ⟨relation, bindings, only, matched, rfl⟩ := exists_of_linkFrom? given
  have filled := Expr.substitute_eq_of_steady matched (Expr.steady_of_apart matched apart)
  obtain ⟨disjunct, mem, holds⟩ := exists_holds_substitute holds (Expr.of_unify matched).2.1
  rw [only, List.mem_singleton] at mem
  subst mem
  cases direction with
  | forward =>
      have matchedSide : disjunct.lhs.substitute bindings = expr := filled
      rw [Relation.substitute, matchedSide] at holds
      exact holds
  | backward =>
      have matchedSide : disjunct.rhs.substitute bindings = expr := filled
      rw [Relation.substitute, matchedSide] at holds
      exact holds

/-- A rule without variables suggests the left side of its relation for the right one. -/
theorem linkFrom?_backward_of_constant (name : String) (relation : Relation) :
    (Rule.mk name [] [relation]).linkFrom? relation.rhs .backward =
      some ⟨relation.comparator, relation.lhs⟩ := by
  simp [linkFrom?, relation?, sides, Expr.unify, Expr.matches?_self, Expr.substitute_unbound]

/-- Links that a rule gives forward hold.  Those that it gives backward hold with their comparator
swapped; that they hold as they stand is so exactly for signs that read the same both ways. -/
theorem links_hold_iff_symmetric (I : Interpretation α) (sign : Symbol) :
    (∀ (rule : Rule) (expr : Expr) (link : Link), rule.Apart expr → rule.Holds I →
      rule.linkFrom? expr .forward = some link → (link.relationFrom expr).Holds I) ∧
    (∀ (rule : Rule) (expr : Expr) (link : Link), rule.Apart expr → rule.Holds I →
      rule.linkFrom? expr .backward = some link →
        (Link.relationFrom ⟨link.comparator.swap, link.target⟩ expr).Holds I) ∧
    ((∀ (rule : Rule) (expr : Expr) (link : Link), rule.Apart expr → rule.Holds I →
      rule.linkFrom? expr .backward = some link → link.comparator.symbol = sign →
        (link.relationFrom expr).Holds I) ↔ I.Symmetric sign) := by
  refine ⟨fun rule expr link apart holds given => holds_of_linkFrom? apart holds given,
    fun rule expr link apart holds given => ?_, ?_, ?_⟩
  · exact (Comparator.holds_swap I link.comparator _ _).2 (holds_of_linkFrom? apart holds given)
  · intro links lhs rhs related
    let relation : Relation := ⟨lhs, { symbol := sign }, rhs⟩
    have holds : (Rule.mk "" [] [relation]).Holds I :=
      fun _ => ⟨relation, List.mem_singleton_self _, related⟩
    have apart : (Rule.mk "" [] [relation]).Apart rhs := fun _ mem => (List.not_mem_nil mem).elim
    exact links _ _ _ apart holds (linkFrom?_backward_of_constant "" relation) rfl
  · rintro symmetric rule expr link apart holds given rfl
    exact (symmetric.holds_comm _ _).1 (holds_of_linkFrom? apart holds given)

/-- Not every link holds that a true rule gives for an expression apart from its variables: of the
integers, `x < x + 1` holds and suggests `a` backward for `a + 1`, but `a + 1 < a` is false. -/
theorem not_forall_holds_of_linkFrom? :
    ¬ ∀ (rule : Rule) (expr : Expr) (direction : Direction) (link : Link), rule.isSimple →
        rule.Apart expr → rule.linkFrom? expr direction = some link →
          ∀ (α : Type) (I : Interpretation α), rule.Holds I → (link.relationFrom expr).Holds I := by
  intro sound
  let x : Symbol := { name := "x" }
  let one : Expr := .named "1"
  let integers : Interpretation Int := {
    atom := fun symbol => if symbol.name = "1" then 1 else 0
    unary := fun _ value => -value
    binary := fun _ left right => left + right
    relation := fun _ left right => left < right }
  let rule : Rule := ⟨"growth", [x], [⟨.atom x, .less, .atom x + one⟩]⟩
  have holds : rule.Holds integers := by
    intro values
    refine ⟨_, List.mem_singleton_self _, ?_⟩
    change values x < values x + 1
    omega
  let expr : Expr := .named "a" + one
  have apart : rule.Apart expr := by
    unfold Apart
    decide
  have less := sound rule expr .backward ⟨.less, .named "a"⟩ rfl apart rfl Int integers holds
  change (0 : Int) + 1 < 0 at less
  omega

end Rule

end Calculation
