import Calculation.Proofs.Application
import Calculation.Proofs.Resolution
import Calculation.Theory

/-!
What a theory suggests once facts have been put into it is true.

Facts resolve a theory one after the other.  If the rules quantify over no name that occurs in a
fact, nothing is ever renamed: what is left of a rule is quantified over symbols of that rule
(`Rule.quantified_subset_of_mem_resolvents`).  So the names stay apart from those of the later facts
and of the expression, however many facts there are, and every rule that is left holds wherever the
theory and the facts do (`Theory.holds_foldl_resolve`).

* `Theory.suggestedRelations_hold_of_symmetric`: what is suggested in the end holds, if relation
  signs read the same in both directions.
-/

namespace Calculation

universe u

variable {α : Type u}

namespace Rule

/-- None of the symbols has the name of a quantified symbol of the rule. -/
def NamedApart (rule : Rule) (symbols : List Symbol) : Prop :=
  ∀ symbol ∈ rule.quantified, ∀ other ∈ symbols, symbol.name ≠ other.name

variable {rule resolvent : Rule} {fact : Relation}

theorem NamedApart.of_subset {symbols : List Symbol} (apart : rule.NamedApart symbols)
    (fewer : resolvent.quantified ⊆ rule.quantified) : resolvent.NamedApart symbols :=
  fun symbol mem => apart symbol (fewer mem)

/-- A rule is apart from an expression if its names are. -/
theorem NamedApart.apart {expr : Expr} (apart : rule.NamedApart expr.symbols) :
    rule.Apart expr :=
  fun symbol listed mem => apart symbol listed symbol (Expr.mem_symbols_of_mem_atoms mem) rfl

/-- A fact that has none of the names of a rule meets no namesakes. -/
theorem NamedApart.spares (apart : rule.NamedApart fact.symbols) (index : Nat)
    (disjunct : Relation) : rule.Spares fact index disjunct := by
  intro symbol listed namesake
  have itself : symbol ∈ (Expr.atom symbol).symbols := by
    rw [Expr.symbols_atom]
    exact List.mem_cons_self
  have occurs := Relation.mem_symbols_of_mem_facing namesake itself
  exact (apart symbol listed symbol occurs rfl).elim

/-- What is left of a rule quantifies over symbols of the rule, if the fact has none of the
names. -/
theorem quantified_subset_of_mem_resolvents (apart : rule.NamedApart fact.symbols)
    (mem : resolvent ∈ rule.resolvents fact) : resolvent.quantified ⊆ rule.quantified := by
  obtain ⟨index, disjunct, -, given⟩ := exists_of_mem_resolvents mem
  obtain ⟨answer, bindings, matched, rfl⟩ := resolvent?_eq_some_iff.1 given
  obtain ⟨-, -, -, found⟩ := Relation.of_unify matched
  -- the values are parts of the fact, so they capture no name
  have free : ∀ symbol ∈ rule.quantified, symbol.name ∉ bindings.namesInValues := by
    intro symbol listed captured
    obtain ⟨⟨key, value⟩, bound, named⟩ := List.mem_flatMap.1 captured
    obtain ⟨other, inside, same⟩ := List.mem_map.1 named
    have faces := ((found key value).1 (Bindings.get?_eq_some_iff.2 bound)).1
    have occurs := Relation.mem_symbols_of_mem_facing faces inside
    exact apart symbol listed other occurs same.symm
  have kept : (rule.discharge index bindings).quantified =
      rule.quantified.filter fun symbol => !bindings.isBound symbol := by
    rw [discharge, keepApart_eq_of_not_captured free]
  rw [kept]
  exact List.filter_sublist.subset

/-- What is left of a rule that holds, given a fact that holds and has none of its names, holds. -/
theorem holds_of_mem_resolvents {I : Interpretation α} (apart : rule.NamedApart fact.symbols)
    (holds : rule.Holds I) (factHolds : fact.Holds I) (mem : resolvent ∈ rule.resolvents fact) :
    resolvent.Holds I := by
  obtain ⟨index, disjunct, stands, given⟩ := exists_of_mem_resolvents mem
  obtain ⟨answer, bindings, matched, rfl⟩ := resolvent?_eq_some_iff.1 given
  exact holds_discharge stands matched (apart.spares index disjunct) holds factHolds

/-- A link that a rule suggests holds, if the signs read the same in both directions. -/
theorem holds_of_mem_suggestions {I : Interpretation α} (symmetric : ∀ sign, I.Symmetric sign)
    {expr : Expr} (apart : rule.Apart expr) (holds : rule.Holds I) {link : Link}
    (mem : link ∈ rule.suggestions expr) : (link.relationFrom expr).Holds I := by
  obtain ⟨direction, -, given⟩ := List.mem_filterMap.1 mem
  have related := holds_of_linkFrom? apart holds given
  cases direction with
  | forward => exact related
  | backward => exact ((symmetric _).holds_comm _ _).1 related

end Rule

namespace Theory

variable {I : Interpretation α} {theory : Theory}

/-- The rules of the theory hold. -/
def Holds (I : Interpretation α) (theory : Theory) : Prop := ∀ rule ∈ theory.rules, rule.Holds I

/-- What is left of a theory that holds, given a fact that holds and has none of the names that are
quantified, holds and quantifies over no new names. -/
theorem holds_resolve {fact : Relation} (holds : theory.Holds I) (factHolds : fact.Holds I)
    (apart : ∀ rule ∈ theory.rules, rule.NamedApart fact.symbols) :
    (theory.resolve fact).Holds I ∧ ∀ resolvent ∈ (theory.resolve fact).rules,
      ∃ rule ∈ theory.rules, resolvent.quantified ⊆ rule.quantified := by
  constructor
  · intro resolvent mem
    obtain ⟨rule, listed, left⟩ := List.mem_flatMap.1 mem
    exact Rule.holds_of_mem_resolvents (apart rule listed) (holds rule listed) factHolds left
  · intro resolvent mem
    obtain ⟨rule, listed, left⟩ := List.mem_flatMap.1 mem
    exact ⟨rule, listed, Rule.quantified_subset_of_mem_resolvents (apart rule listed) left⟩

/-- The same of any number of facts. -/
theorem holds_foldl_resolve {facts : List Relation} (holds : theory.Holds I)
    (factsHold : ∀ fact ∈ facts, fact.Holds I)
    (apart : ∀ rule ∈ theory.rules, ∀ fact ∈ facts, rule.NamedApart fact.symbols) :
    (facts.foldl resolve theory).Holds I ∧ ∀ resolvent ∈ (facts.foldl resolve theory).rules,
      ∃ rule ∈ theory.rules, resolvent.quantified ⊆ rule.quantified := by
  induction facts generalizing theory with
  | nil => exact ⟨holds, fun rule listed => ⟨rule, listed, List.Subset.refl _⟩⟩
  | cons fact later ih =>
      obtain ⟨between, fewer⟩ := holds_resolve holds (factsHold fact List.mem_cons_self)
        fun rule listed => apart rule listed fact List.mem_cons_self
      have stillApart : ∀ rule ∈ (theory.resolve fact).rules, ∀ other ∈ later,
          rule.NamedApart other.symbols := by
        intro rule listed other mem
        obtain ⟨original, was, subset⟩ := fewer rule listed
        exact (apart original was other (List.mem_cons_of_mem _ mem)).of_subset subset
      obtain ⟨after, fewest⟩ := ih between
        (fun other mem => factsHold other (List.mem_cons_of_mem _ mem)) stillApart
      refine ⟨after, fun rule listed => ?_⟩
      obtain ⟨middle, was, subset⟩ := fewest rule listed
      obtain ⟨original, wasFirst, subset'⟩ := fewer middle was
      exact ⟨original, wasFirst, List.Subset.trans subset subset'⟩

/-- What the rules suggest for an expression, once they have been resolved with facts, holds
wherever the rules and the facts hold and the relation signs read the same in both directions, if no
quantified symbol has the name of a symbol in the expression or in a fact. -/
theorem suggestedRelations_hold_of_symmetric (I : Interpretation α) (theory : Theory)
    (facts : List Relation) (expr : Expr) (symmetric : ∀ sign, I.Symmetric sign)
    (apart : ∀ rule ∈ theory.rules,
      rule.NamedApart (expr.symbols ++ facts.flatMap Relation.symbols))
    (holds : theory.Holds I) (factsHold : ∀ fact ∈ facts, fact.Holds I) :
    ∀ relation ∈ (facts.foldl resolve theory).suggestedRelations expr, relation.Holds I := by
  have apartFacts : ∀ rule ∈ theory.rules, ∀ fact ∈ facts, rule.NamedApart fact.symbols := by
    intro rule listed fact mem symbol quantified other occurs
    exact apart rule listed symbol quantified other
      (List.mem_append_right _ (List.mem_flatMap.2 ⟨fact, mem, occurs⟩))
  have apartExpr : ∀ rule ∈ theory.rules, rule.NamedApart expr.symbols :=
    fun rule listed symbol quantified other occurs =>
      apart rule listed symbol quantified other (List.mem_append_left _ occurs)
  obtain ⟨left, fewer⟩ := holds_foldl_resolve holds factsHold apartFacts
  intro relation mem
  obtain ⟨link, suggested, rfl⟩ := List.mem_map.1 mem
  obtain ⟨rule, simple, given⟩ := List.mem_flatMap.1 suggested
  have listed := (List.mem_filter.1 simple).1
  obtain ⟨original, was, subset⟩ := fewer rule listed
  exact Rule.holds_of_mem_suggestions symmetric ((apartExpr original was).of_subset subset).apart
    (left rule listed) given

/-- Two facts lead from a product to the product of what its factors equal. -/
theorem suggestedRelations_hold_of_symmetric_congruence :
    let atom (name : String) : Expr := .named name
    let product : Relation := ⟨atom "x" * atom "u", .equal, atom "y" * atom "v"⟩
    let conditions : List Relation :=
      [⟨atom "x", .equal, atom "y"⟩, ⟨atom "u", .equal, atom "v"⟩]
    let quantified : List Symbol :=
      [{ name := "x" }, { name := "y" }, { name := "u" }, { name := "v" }]
    let theory : Theory := ⟨[.implication "congruence" quantified product conditions]⟩
    let facts : List Relation := [⟨atom "a", .equal, atom "b"⟩, ⟨atom "c", .equal, atom "d"⟩]
    let relation : Relation := ⟨atom "a" * atom "c", .equal, atom "b" * atom "d"⟩
    let integers : Interpretation Int := {
      atom := fun symbol => if symbol.name = "a" ∨ symbol.name = "b" then 2 else 3
      unary := fun _ value => -value
      binary := fun _ left right => left * right
      relation := fun _ left right => left = right }
    relation ∈ (facts.foldl resolve theory).suggestedRelations (atom "a" * atom "c") ∧
      relation.Holds integers := by
  intro atom product conditions quantified theory facts relation integers
  have mem : relation ∈ (facts.foldl resolve theory).suggestedRelations (atom "a" * atom "c") := by
    decide +kernel
  have apart : ∀ rule ∈ theory.rules,
      rule.NamedApart ((atom "a" * atom "c").symbols ++ facts.flatMap Relation.symbols) := by
    unfold Rule.NamedApart
    decide +kernel
  have holds : theory.Holds integers := by
    intro rule listed values
    obtain rfl := List.mem_singleton.1 listed
    let value (name : String) : Int := values { name := name }
    by_cases first : value "x" = value "y"
    · by_cases second : value "u" = value "v"
      · refine ⟨product, List.mem_cons_self, ?_⟩
        change value "x" * value "u" = value "y" * value "v"
        rw [first, second]
      · exact ⟨(Relation.mk (atom "u") .equal (atom "v")).negate,
          by simp [Rule.implication, Rule.ofDisjuncts, conditions], second⟩
    · exact ⟨(Relation.mk (atom "x") .equal (atom "y")).negate,
        by simp [Rule.implication, Rule.ofDisjuncts, conditions], first⟩
  have factsHold : ∀ fact ∈ facts, fact.Holds integers := by
    intro fact mem
    simp only [facts, List.mem_cons, List.not_mem_nil, or_false] at mem
    rcases mem with rfl | rfl
    · rfl
    · rfl
  exact ⟨mem, suggestedRelations_hold_of_symmetric integers theory facts _
    (fun _ _ _ related => Eq.symm related) apart holds factsHold relation mem⟩

end Theory

end Calculation
