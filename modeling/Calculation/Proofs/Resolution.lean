import Calculation.Proofs.Application
import Calculation.Proofs.Renaming

/-!
What is left of a rule follows from the rule and the fact, and when it does not.

A fact refutes a disjunct that becomes the negation of the fact under the values found
(`Relation.of_unify`).  The rest of the rule then has to hold, for values of the symbols that stay
quantified (`Rule.holds_discharge`).  The one thing that can go wrong is a namesake: a quantified
symbol that faces itself in the fact matches without a value, so that what the fact says of one
constant is left to hold of everything.

* `Rule.resolvents_hold_iff_no_namesake`: resolvents hold if the namesakes met have no value and do
  not occur in what is left; and what is left of any rule with a disjunct holds exactly if the
  disjunct meets no namesakes.
* `Rule.not_forall_holds_of_mem_resolvents`: of `x ⋅ c = b ⋅ c` where `x = b`, the fact `x = b`
  about a constant `x` leaves `x ⋅ c = b ⋅ c` for all `x`.
-/

namespace Calculation

universe u

variable {α : Type u}

/-! ## What it means that a fact refutes a disjunct -/

theorem Comparator.eq_negate_of_agrees {template source : Comparator}
    (opposed : template.agrees source true = true) : template = source.negate := by
  obtain ⟨sign, reversed, negated⟩ := template
  obtain ⟨sourceSign, sourceReversed, sourceNegated⟩ := source
  simp only [agrees, Bool.and_eq_true, decide_eq_true_eq, beq_iff_eq] at opposed
  obtain ⟨⟨rfl, rfl⟩, flags⟩ := opposed
  have flipped : negated = !sourceNegated := by
    revert flags
    cases negated <;> cases sourceNegated <;> decide
  rw [flipped, negate]

namespace Relation

/-- Refuting with a table of unbound symbols: the comparators contradict each other, both sides fit,
and the table holds exactly what they demand. -/
theorem of_unify {template source answer : Relation} {quantified : List Symbol}
    {bindings : Bindings}
    (matched : template.unify source true (.unbound quantified) = (some answer, bindings)) :
    template.comparator = source.comparator.negate ∧ template.Fits source ∧
      bindings.quantified = quantified ∧
      ∀ symbol value, bindings.get? symbol = some value ↔
        (symbol, value) ∈ template.facing source ∧ value ≠ .atom symbol := by
  unfold unify at matched
  split at matched
  · rename_i agrees
    split at matched
    · rename_i middle left
      split at matched
      · rename_i extended right
        cases matched
        obtain ⟨fitsLeft, boundLeft⟩ := Expr.matches?_eq_true_iff.1 left
        obtain ⟨fitsRight, boundRight⟩ := Expr.matches?_eq_true_iff.1 right
        obtain ⟨sameLeft, valuesLeft⟩ := Bindings.values_of_bindAll? boundLeft
        obtain ⟨sameRight, valuesRight⟩ := Bindings.values_of_bindAll? boundRight
        refine ⟨Comparator.eq_negate_of_agrees agrees, ⟨fitsLeft, fitsRight⟩,
          sameRight.trans sameLeft, fun symbol value => ?_⟩
        have none : (Bindings.unbound quantified).values = [] := rfl
        rw [Bindings.get?_eq_some_iff, valuesRight, valuesLeft, none, List.append_nil,
          List.mem_append, List.mem_reverse, List.mem_reverse, Expr.mem_demands_iff,
          Expr.mem_demands_iff, facing, List.mem_append, ← or_and_right, or_comm]
      · cases matched
    · cases matched
  · cases matched

/-- What an atom of the template faces has no symbols other than those of the source. -/
theorem mem_symbols_of_mem_facing {template source : Relation} {symbol other : Symbol}
    {part : Expr} (faces : (symbol, part) ∈ template.facing source) (mem : other ∈ part.symbols) :
    other ∈ source.symbols := by
  rcases List.mem_append.1 faces with left | right
  · exact List.mem_append_left _ (Expr.mem_symbols_of_mem_facing left mem)
  · exact List.mem_append_right _ (Expr.mem_symbols_of_mem_facing right mem)

/-- A disjunct whose atoms have the values of what they face in a fact holds exactly if the fact
does not. -/
theorem holds_iff_not_of_fits (I : Interpretation α) {values : Symbol → α}
    {template source : Relation} (opposed : template.comparator = source.comparator.negate)
    (fits : template.Fits source)
    (faced : ∀ entry ∈ template.facing source, values entry.1 = entry.2.value I) :
    template.Holds (I.withAtoms values) ↔ ¬ source.Holds I := by
  rw [Holds, Holds, opposed, Comparator.holds_withAtoms, Comparator.holds_negate,
    Expr.value_eq_of_fits I fits.1 fun entry mem => faced entry (List.mem_append_left _ mem),
    Expr.value_eq_of_fits I fits.2 fun entry mem => faced entry (List.mem_append_right _ mem)]

theorem mem_symbols_of_mem_atoms {relation : Relation} {symbol : Symbol}
    (mem : symbol ∈ relation.atoms) : symbol ∈ relation.symbols := by
  rcases List.mem_append.1 mem with left | right
  · exact List.mem_append_left _ (Expr.mem_symbols_of_mem_atoms left)
  · exact List.mem_append_right _ (Expr.mem_symbols_of_mem_atoms right)

end Relation

theorem Bindings.name_mem_namesInValues {bindings : Bindings} {symbol atom : Symbol}
    {value : Expr} (bound : bindings.get? symbol = some value) (mem : atom ∈ value.atoms) :
    atom.name ∈ bindings.namesInValues := by
  refine List.mem_flatMap.2 ⟨(symbol, value), Bindings.get?_eq_some_iff.1 bound, ?_⟩
  exact List.mem_map.2 ⟨atom, Expr.mem_symbols_of_mem_atoms mem, rfl⟩

namespace Rule

/-! ## Leaving out a disjunct -/

/-- How the symbols of a rule are kept apart from the values found when one of its disjuncts is left
out: `quantified` are those quantified afterwards, and `after` is the table put into the rest. -/
def LeftApart (rule : Rule) (bindings : Bindings) (quantified : List Symbol) (after : Bindings) :
    Prop :=
  KeptApart bindings.namesInValues rule.quantified bindings
    ((rule.disjuncts.flatMap Relation.symbols).map Symbol.name ++ bindings.namesInValues)
    quantified after

/-- Leaving out a disjunct puts the values found, and new names where they are needed, into the rest
of the rule. -/
theorem exists_of_discharge (rule : Rule) (index : Nat) {bindings : Bindings}
    (same : bindings.quantified = rule.quantified) :
    ∃ quantified after, rule.LeftApart bindings quantified after ∧
      rule.discharge index bindings =
        ⟨rule.name, quantified, (rule.disjuncts.eraseIdx index).map (·.substitute after)⟩ := by
  refine ⟨_, _, keepApart_spec _ _ _ _ fun symbol mem => ?_, rfl⟩
  rw [same]
  exact mem

section LeftApart

variable {rule : Rule} {bindings after : Bindings} {quantified : List Symbol}

/-- No symbol that is quantified afterwards occurs in a value found. -/
theorem LeftApart.not_mem_value (left : rule.LeftApart bindings quantified after)
    {symbol new : Symbol} {value : Expr} (bound : bindings.get? symbol = some value)
    (listed : new ∈ quantified) : new ∉ value.atoms := by
  intro mem
  have captured := Bindings.name_mem_namesInValues bound mem
  rcases left.origin listed with ⟨-, apart⟩ | fresh
  · exact apart captured
  · exact fresh (List.mem_append_right _ captured)

/-- A symbol of the rule that is quantified afterwards was so before. -/
theorem LeftApart.mem_quantified (left : rule.LeftApart bindings quantified after)
    {disjunct : Relation} {symbol : Symbol} (mem : disjunct ∈ rule.disjuncts)
    (occurs : symbol ∈ disjunct.atoms) (listed : symbol ∈ quantified) :
    symbol ∈ rule.quantified := by
  rcases left.origin listed with ⟨before, -⟩ | fresh
  · exact before
  · have used : symbol ∈ rule.disjuncts.flatMap Relation.symbols :=
      List.mem_flatMap.2 ⟨disjunct, mem, Relation.mem_symbols_of_mem_atoms occurs⟩
    exact (fresh (List.mem_append_left _ (List.mem_map_of_mem used))).elim

/-- A symbol that is not quantified is not replaced. -/
theorem LeftApart.substitute_eq (left : rule.LeftApart bindings quantified after)
    (same : bindings.quantified = rule.quantified) {symbol : Symbol}
    (constant : symbol ∉ rule.quantified) : (Expr.atom symbol).substitute after = .atom symbol := by
  have unlisted : symbol ∉ after.quantified := by
    rw [left.quantified_eq, same]
    exact constant
  rw [Expr.substitute, Bindings.get?_eq_none_of_not_mem unlisted]
  rfl

end LeftApart

/-- The namesakes that the disjunct meets in the fact do no harm: a quantified symbol that faces
itself faces nothing else, and does not occur in the other disjuncts. -/
def Spares (rule : Rule) (fact : Relation) (index : Nat) (disjunct : Relation) : Prop :=
  ∀ symbol ∈ rule.quantified, (symbol, .atom symbol) ∈ disjunct.facing fact →
    (∀ part, (symbol, part) ∈ disjunct.facing fact → part = .atom symbol) ∧
      ∀ other ∈ rule.disjuncts.eraseIdx index, symbol ∉ other.atoms

/-- If the quantified symbols have values with which a fact that holds refutes a disjunct, then one
of the other disjuncts holds for these values. -/
theorem exists_holds_eraseIdx {I : Interpretation α} {rule : Rule} {fact disjunct : Relation}
    {index : Nat} {values : Symbol → α} (holds : rule.Holds I) (factHolds : fact.Holds I)
    (stands : rule.disjuncts[index]? = some disjunct)
    (opposed : disjunct.comparator = fact.comparator.negate) (fits : disjunct.Fits fact)
    (faced : ∀ symbol part, (symbol, part) ∈ disjunct.facing fact →
      (Expr.atom symbol).value (I.assign rule.quantified values) = part.value I) :
    ∃ other ∈ rule.disjuncts.eraseIdx index, other.Holds (I.assign rule.quantified values) := by
  obtain ⟨chosen, mem, chosenHolds⟩ := holds values
  obtain ⟨place, atPlace⟩ := List.mem_iff_getElem?.1 mem
  refine ⟨chosen, List.mem_eraseIdx_iff_getElem?.2 ⟨place, ?_, atPlace⟩, chosenHolds⟩
  rintro rfl
  rw [stands] at atPlace
  cases atPlace
  have opposite := Relation.holds_iff_not_of_fits I opposed fits fun entry => faced entry.1 entry.2
  exact opposite.1 chosenHolds factHolds

/-- What is left of a rule that holds, if a fact that holds refutes one of its disjuncts, holds. -/
theorem holds_discharge {I : Interpretation α} {rule : Rule} {fact disjunct answer : Relation}
    {index : Nat} {bindings : Bindings} (stands : rule.disjuncts[index]? = some disjunct)
    (matched : disjunct.unify fact true (.unbound rule.quantified) = (some answer, bindings))
    (spares : rule.Spares fact index disjunct) (holds : rule.Holds I) (factHolds : fact.Holds I) :
    (rule.discharge index bindings).Holds I := by
  obtain ⟨opposed, fits, same, found⟩ := Relation.of_unify matched
  obtain ⟨quantified, after, left, discharged⟩ := exists_of_discharge rule index same
  rw [discharged]
  intro values
  -- Namesakes keep their own value, which is the only one that the fact speaks about.
  let witness : Symbol → α := fun symbol =>
    if (symbol, .atom symbol) ∈ disjunct.facing fact then I.atom symbol
    else ((Expr.atom symbol).substitute after).value (I.assign quantified values)
  have faced : ∀ symbol part, (symbol, part) ∈ disjunct.facing fact →
      (Expr.atom symbol).value (I.assign rule.quantified witness) = part.value I := by
    intro symbol part faces
    change (if symbol ∈ rule.quantified then witness symbol else I.atom symbol) = part.value I
    by_cases itself : part = .atom symbol
    · subst itself
      simp only [witness, if_pos faces, ite_self]
      rfl
    · have bound := (found symbol part).2 ⟨faces, itself⟩
      have listed : symbol ∈ rule.quantified := by
        rw [← same]
        exact Bindings.mem_quantified_of_get? bound
      have stranger : (symbol, .atom symbol) ∉ disjunct.facing fact := fun namesake =>
        itself ((spares symbol listed namesake).1 part faces)
      have value : (Expr.atom symbol).substitute after = part := by
        rw [Expr.substitute, left.kept bound]
        rfl
      simp only [witness, if_pos listed, if_neg stranger, value]
      exact Expr.value_assign I values fun new mem => left.not_mem_value bound mem
  obtain ⟨chosen, remains, chosenHolds⟩ :=
    exists_holds_eraseIdx holds factHolds stands opposed fits faced
  refine ⟨chosen.substitute after, List.mem_map_of_mem remains, ?_⟩
  rw [Relation.holds_substitute]
  refine (Relation.holds_congr I fun symbol occurs => ?_).1 chosenHolds
  by_cases listed : symbol ∈ rule.quantified
  · have stranger : (symbol, .atom symbol) ∉ disjunct.facing fact := fun namesake =>
      (spares symbol listed namesake).2 chosen remains occurs
    simp only [witness, if_pos listed, if_neg stranger]
  · have mem := List.mem_of_mem_eraseIdx remains
    have constant : symbol ∉ quantified := fun new => listed (left.mem_quantified mem occurs new)
    rw [if_neg listed, left.substitute_eq same listed]
    exact (if_neg constant).symm

/-! ## Namesakes -/

/-- Expressions as themselves.  The comparator holds for all pairs of them except one, and any other
sign says that what is on its left is the given expression. -/
def refuting (comparator : Comparator) (lhs rhs given : Expr) : Interpretation Expr :=
  .free fun sign left right =>
    if sign = comparator.symbol then
      let apart := if comparator.reversed then ¬ (right = lhs ∧ left = rhs)
        else ¬ (left = lhs ∧ right = rhs)
      if comparator.negated then ¬ apart else apart
    else left = given

theorem holds_refuting (comparator : Comparator) (lhs rhs given left right : Expr) :
    comparator.Holds (refuting comparator lhs rhs given) left right ↔
      ¬ (left = lhs ∧ right = rhs) := by
  obtain ⟨sign, reversed, negated⟩ := comparator
  cases reversed <;> cases negated <;>
    simp [Comparator.Holds, refuting, Interpretation.free]

theorem holds_refuting_of_other {comparator : Comparator} {sign : Symbol}
    (different : sign ≠ comparator.symbol) (lhs rhs given left right : Expr) :
    (Comparator.mk sign false false).Holds (refuting comparator lhs rhs given) left right ↔
      left = given := by
  simp [Comparator.Holds, refuting, Interpretation.free, different]

/-- There is always another sign. -/
theorem exists_other_sign (sign : Symbol) : ∃ other : Symbol, other ≠ sign := by
  refine ⟨{ name := sign.name ++ "'" }, fun same => ?_⟩
  have length := congrArg (·.name.length) same
  have prime : "'".length = 1 := rfl
  simp only [String.length_append] at length
  omega

/-- Where the comparator fails for the sides of a fact only, the fact holds. -/
theorem fact_holds_refuting {disjunct fact : Relation} (given : Expr)
    (opposed : disjunct.comparator = fact.comparator.negate) :
    fact.Holds (refuting disjunct.comparator fact.lhs fact.rhs given) := by
  have fails := holds_refuting disjunct.comparator fact.lhs fact.rhs given fact.lhs fact.rhs
  rw [opposed, Comparator.holds_negate, ← opposed] at fails
  have sides : fact.lhs = fact.lhs ∧ fact.rhs = fact.rhs := ⟨rfl, rfl⟩
  rw [Relation.Holds, refuting, Expr.value_free, Expr.value_free]
  exact Classical.byContradiction fun denied => fails.1 denied sides

/-- Where the comparator fails for the sides of a fact only, a disjunct that fits the fact holds as
soon as one of its atoms has not the value of what it faces. -/
theorem disjunct_holds_refuting {disjunct fact : Relation} (given : Expr)
    (fits : disjunct.Fits fact) {values : Symbol → Expr} {symbol : Symbol} {part : Expr}
    (faces : (symbol, part) ∈ disjunct.facing fact) (other : values symbol ≠ part) :
    disjunct.Holds ((refuting disjunct.comparator fact.lhs fact.rhs given).withAtoms values) := by
  rw [Relation.Holds, Comparator.holds_withAtoms, holds_refuting]
  rintro ⟨left, right⟩
  rcases List.mem_append.1 faces with onLeft | onRight
  · exact other (Expr.eq_of_value_free_eq fits.1 left _ onLeft)
  · exact other (Expr.eq_of_value_free_eq fits.2 right _ onRight)

/-- After a match in which a symbol faces itself, there are values for what is quantified with which
nothing that is put in the place of the symbol stands for the symbol. -/
theorem LeftApart.value_ne_namesake {rule : Rule} {bindings after : Bindings}
    {quantified : List Symbol} (left : rule.LeftApart bindings quantified after)
    {symbol : Symbol} (listed : symbol ∈ rule.quantified)
    (elsewhere : ∀ value, bindings.get? symbol = some value → value ≠ .atom symbol)
    (relation : Symbol → Expr → Expr → Prop) :
    ((Expr.atom symbol).substitute after).value
        ((Interpretation.free relation).assign quantified fun _ => .unary .minus (.atom symbol)) ≠
      .atom symbol := by
  cases bound : bindings.get? symbol with
  | some value =>
      have replaced : (Expr.atom symbol).substitute after = value := by
        rw [Expr.substitute, left.kept bound]
        rfl
      rw [replaced, Expr.value_assign _ _ fun new mem => left.not_mem_value bound mem,
        Expr.value_free]
      exact elsewhere value bound
  | none =>
      obtain ⟨new, mem, replaced⟩ := left.image listed bound
      rw [replaced]
      change (if new ∈ quantified then _ else _) ≠ Expr.atom symbol
      rw [if_pos mem]
      intro same
      cases same

/-- A disjunct that meets a namesake in a fact is a disjunct of a rule that holds together with the
fact, while what is left of the rule does not.  The other disjunct says that the namesake is what it
is, which is true of no other value. -/
theorem exists_not_holds_discharge {quantified : List Symbol} {disjunct fact answer : Relation}
    {bindings : Bindings}
    (matched : disjunct.unify fact true (.unbound quantified) = (some answer, bindings))
    {symbol : Symbol} (listed : symbol ∈ quantified)
    (namesake : (symbol, .atom symbol) ∈ disjunct.facing fact) :
    ∃ (other : Relation) (I : Interpretation Expr),
      (Rule.mk "" quantified [disjunct, other]).Holds I ∧ fact.Holds I ∧
        ¬ ((Rule.mk "" quantified [disjunct, other]).discharge 0 bindings).Holds I := by
  obtain ⟨opposed, fits, same, found⟩ := Relation.of_unify matched
  obtain ⟨sign, different⟩ := exists_other_sign disjunct.comparator.symbol
  let other : Relation := ⟨.atom symbol, { symbol := sign }, .atom symbol⟩
  refine ⟨other, refuting disjunct.comparator fact.lhs fact.rhs (.atom symbol), ?_,
    fact_holds_refuting _ opposed, ?_⟩
  · intro values
    by_cases itself : values symbol = .atom symbol
    · refine ⟨other, by simp, (holds_refuting_of_other different _ _ _ _ _).2 ?_⟩
      change (if symbol ∈ quantified then values symbol else _) = Expr.atom symbol
      rw [if_pos listed, itself]
    · refine ⟨disjunct, by simp, disjunct_holds_refuting _ fits namesake ?_⟩
      rw [if_pos listed]
      exact itself
  · obtain ⟨fresh, after, left, discharged⟩ :=
      exists_of_discharge (Rule.mk "" quantified [disjunct, other]) 0 same
    rw [discharged]
    intro holds
    obtain ⟨relation, mem, relationHolds⟩ := holds fun _ => .unary .minus (.atom symbol)
    obtain rfl := List.mem_singleton.1 mem
    have value := (holds_refuting_of_other different _ _ _ _ _).1 relationHolds
    have elsewhere := fun value bound => ((found symbol value).1 bound).2
    exact left.value_ne_namesake listed elsewhere _ value

/-! ## All that is left of a rule -/

/-- What is left of a rule is left of it after one of its disjuncts is refuted. -/
theorem exists_of_mem_resolvents {rule resolvent : Rule} {fact : Relation}
    (mem : resolvent ∈ rule.resolvents fact) :
    ∃ index disjunct, rule.disjuncts[index]? = some disjunct ∧
      rule.resolvent? fact index disjunct = some resolvent := by
  unfold resolvents at mem
  split at mem
  · cases mem
  · obtain ⟨⟨disjunct, index⟩, listed, given⟩ := List.mem_filterMap.1 mem
    exact ⟨index, disjunct, List.mem_zipIdx_iff_getElem?.1 listed, given⟩

theorem resolvent?_eq_some_iff {rule resolvent : Rule} {fact disjunct : Relation} {index : Nat} :
    rule.resolvent? fact index disjunct = some resolvent ↔
      ∃ answer bindings, disjunct.unify fact true (.unbound rule.quantified) =
        (some answer, bindings) ∧ resolvent = rule.discharge index bindings := by
  unfold resolvent?
  constructor
  · intro given
    split at given
    · rename_i answer bindings matched
      exact ⟨answer, bindings, matched, (Option.some.inj given).symm⟩
    · cases given
  · rintro ⟨answer, bindings, matched, rfl⟩
    rw [matched]

/-- What is left of a rule holds if the rule and the fact do, and if namesakes met in the fact face
nothing else and do not occur in what is left.  No rule with a given disjunct can leave anything
false, exactly if the disjunct meets no namesakes at all. -/
theorem resolvents_hold_iff_no_namesake (fact : Relation) :
    (∀ {α : Type u} (I : Interpretation α) (rule : Rule),
      (∀ index disjunct, rule.disjuncts[index]? = some disjunct →
        (rule.resolvent? fact index disjunct).isSome → rule.Spares fact index disjunct) →
      rule.Holds I → fact.Holds I → ∀ resolvent ∈ rule.resolvents fact, resolvent.Holds I) ∧
    ∀ (quantified : List Symbol) (disjunct : Relation),
      (disjunct.unify fact true (.unbound quantified)).1.isSome →
      ((∀ (name : String) (front back : List Relation) (resolvent : Rule),
        (Rule.mk name quantified (front ++ disjunct :: back)).resolvent? fact front.length
          disjunct = some resolvent →
        ∀ (α : Type) (I : Interpretation α),
          (Rule.mk name quantified (front ++ disjunct :: back)).Holds I → fact.Holds I →
            resolvent.Holds I) ↔
        ∀ symbol ∈ quantified, (symbol, .atom symbol) ∉ disjunct.facing fact) := by
  refine ⟨fun I rule spares holds factHolds resolvent mem => ?_,
    fun quantified disjunct matches_ => ⟨fun sound symbol listed namesake => ?_, ?_⟩⟩
  · obtain ⟨index, disjunct, stands, given⟩ := exists_of_mem_resolvents mem
    have spared := spares index disjunct stands (by rw [given]; rfl)
    obtain ⟨answer, bindings, matched, rfl⟩ := resolvent?_eq_some_iff.1 given
    exact holds_discharge stands matched spared holds factHolds
  · obtain ⟨answer, some_⟩ := Option.isSome_iff_exists.1 matches_
    have matched : disjunct.unify fact true (.unbound quantified) =
        (some answer, (disjunct.unify fact true (.unbound quantified)).2) := Prod.ext some_ rfl
    obtain ⟨other, I, holds, factHolds, fails⟩ := exists_not_holds_discharge matched listed namesake
    exact fails (sound "" [] [other] _ (resolvent?_eq_some_iff.2 ⟨_, _, matched, rfl⟩) Expr I holds
      factHolds)
  · intro strangers name front back resolvent given α I holds factHolds
    obtain ⟨answer, bindings, matched, rfl⟩ := resolvent?_eq_some_iff.1 given
    refine holds_discharge (by simp) matched (fun symbol listed namesake => ?_) holds factHolds
    exact (strangers symbol listed namesake).elim

/-- What is left of a rule can be false although the rule and the fact hold: `x = b` for a constant
`x` leaves `x ⋅ c = b ⋅ c` for all `x` and `c` of the rule that this is so if `x = b`. -/
theorem not_forall_holds_of_mem_resolvents :
    ¬ ∀ (rule : Rule) (fact : Relation) (α : Type) (I : Interpretation α),
        rule.Holds I → fact.Holds I → ∀ resolvent ∈ rule.resolvents fact, resolvent.Holds I := by
  intro sound
  let x : Symbol := { name := "x" }
  let c : Symbol := { name := "c" }
  let b : Expr := .named "b"
  let integers : Interpretation Int := {
    atom := fun _ => 0
    unary := fun _ value => -value
    binary := fun _ left right => left * right
    relation := fun _ left right => left = right }
  let corollary : Relation := ⟨.atom x * .atom c, .equal, b * .atom c⟩
  let rule : Rule := ⟨"cancellation", [x, c], [corollary, ⟨.atom x, .notEqual, b⟩]⟩
  let resolvent : Rule := ⟨"cancellation", [x, c], [corollary]⟩
  have holds : rule.Holds integers := by
    intro values
    by_cases zero : values x = 0
    · refine ⟨corollary, by simp [rule], ?_⟩
      change values x * values c = 0 * values c
      rw [zero]
    · refine ⟨⟨.atom x, .notEqual, b⟩, by simp [rule], ?_⟩
      exact zero
  have mem : resolvent ∈ rule.resolvents ⟨.atom x, .equal, b⟩ := List.mem_singleton_self resolvent
  have overall := sound rule ⟨.atom x, .equal, b⟩ Int integers holds rfl resolvent mem
  obtain ⟨relation, only, product⟩ := overall fun _ => 1
  obtain rfl := List.mem_singleton.1 only
  change (1 : Int) * 1 = 0 * 1 at product
  omega

end Rule

end Calculation
