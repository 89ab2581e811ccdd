import Calculation.Source.Reading
import Calculation.Proofs.Interpretation
import Mathlib.Data.List.Nodup

/-!
A declaration is read as a rule that says what the declaration says.

What a declaration says is told by a reading of the source text alone (`Reading`): a value for each
name, the operations, equality and order.  The other four comparisons are said with these two.  The
rule that a declaration is read as is a disjunction instead, in symbols with flags.

* `Comparison.holds_toRelation`: a relation holds if and only if what was written does.
* `repeated?_eq_some_iff`: which quantified symbol is the first to be repeated.
* `Declaration.toRule_exact`: which declarations are refused, for what, and what the others mean.
-/

namespace Calculation.Source

universe u

variable {α : Type u}

/-! ## What sources say -/

/-- Values for the names, and what the signs of a source stand for. -/
structure Reading (α : Type u) where
  name : String → α
  negation : α → α
  times : α → α → α
  dividedBy : α → α → α
  plus : α → α → α
  minus : α → α → α
  equal : α → α → Prop
  less : α → α → Prop

namespace Reading

def operate (R : Reading α) : BinaryOperator → α → α → α
  | .times => R.times
  | .dividedBy => R.dividedBy
  | .plus => R.plus
  | .minus => R.minus

/-- Whether the values compare as the sign says.  Only `=` and `<` have a reading of their own. -/
def Compares (R : Reading α) (left right : α) : RelationalOperator → Prop
  | .equal => R.equal left right
  | .notEqual => ¬ R.equal left right
  | .less => R.less left right
  | .greater => R.less right left
  | .atMost => ¬ R.less right left
  | .atLeast => ¬ R.less left right

end Reading

/-- The value of what was written.  Parentheses only group. -/
def Tree.value (R : Reading α) : Tree → α
  | .atom leaf => R.name leaf.name
  | .paren inner _ => inner.value R
  | .unary ⟨.minus, _⟩ operand _ => R.negation (operand.value R)
  | .binary lhs operator rhs _ => R.operate operator.kind (lhs.value R) (rhs.value R)

def Comparison.Says (R : Reading α) (comparison : Comparison) : Prop :=
  R.Compares (comparison.lhs.value R) (comparison.rhs.value R) comparison.operator.kind

/-- Wherever all conditions hold, the corollary does. -/
def Declaration.Says (R : Reading α) (declaration : Declaration) : Prop :=
  (∀ condition ∈ declaration.conditions, condition.Says R) → declaration.corollary.Says R

end Source

open Source

universe u

variable {α : Type u}

/-- The reading of sources that agrees with the interpretation. -/
def Interpretation.reading (I : Interpretation α) : Reading α where
  name name := I.atom { name }
  negation := I.unary .minus
  times := I.binary .product
  dividedBy := I.binary .quotient
  plus := I.binary .sum
  minus := I.binary .minus
  equal := I.relation .equality
  less := I.relation .less

namespace Source

/-! ## Expressions and relations -/

theorem Tree.value_toExpr (I : Interpretation α) (tree : Tree) :
    tree.toExpr.value I = tree.value I.reading := by
  induction tree with
  | atom leaf => rfl
  | paren inner span ih => exact ih
  | unary operator operand span ih =>
      obtain ⟨⟨⟩, -⟩ := operator
      exact congrArg (I.unary .minus) ih
  | binary lhs operator rhs span ihl ihr =>
      rw [toExpr, Expr.value, ihl, ihr, value]
      cases operator.kind <;> rfl

theorem Tree.atoms_toExpr (tree : Tree) : tree.toExpr.atoms = tree.atoms.map Atom.symbol := by
  induction tree with
  | atom leaf => rfl
  | paren inner span ih => exact ih
  | unary operator operand span ih => exact ih
  | binary lhs operator rhs span ihl ihr =>
      rw [toExpr, Expr.atoms, ihl, ihr, atoms, List.map_append]

theorem Comparison.holds_toRelation (I : Interpretation α) (comparison : Comparison) :
    comparison.toRelation.Holds I ↔ comparison.Says I.reading := by
  rw [Relation.Holds, toRelation, Tree.value_toExpr, Tree.value_toExpr, Says]
  cases comparison.operator.kind <;> exact Iff.rfl

theorem Comparison.atoms_toRelation (comparison : Comparison) :
    comparison.toRelation.atoms = comparison.atoms.map Atom.symbol := by
  rw [Relation.atoms, toRelation, Tree.atoms_toExpr, Tree.atoms_toExpr, atoms, List.map_append]

/-! ## Quantified symbols -/

/-- In front of `again` no name is repeated, and `first` is the atom there with the name of
`again`. -/
def IsFirstRepetition (atoms : List Atom) (first again : Atom) : Prop :=
  ∃ front back, atoms = front ++ again :: back ∧ (front.map Atom.name).Nodup ∧
    first ∈ front ∧ first.name = again.name

/-- Where no name is repeated, what comes first and what comes later differ in their names. -/
theorem name_ne_of_nodup {front back : List Atom} (apart : ((front ++ back).map Atom.name).Nodup)
    {leaf other : Atom} (early : leaf ∈ front) (late : other ∈ back) : leaf.name ≠ other.name := by
  rw [List.map_append, List.nodup_append] at apart
  exact apart.2.2 _ (List.mem_map_of_mem early) _ (List.mem_map_of_mem late)

theorem nodup_names_concat {atoms : List Atom} (apart : (atoms.map Atom.name).Nodup) {leaf : Atom}
    (new : atoms.find? (·.name = leaf.name) = none) :
    ((atoms ++ [leaf]).map Atom.name).Nodup := by
  rw [List.map_append, List.nodup_append]
  refine ⟨apart, List.pairwise_singleton .., ?_⟩
  rintro _ listed _ last same
  obtain ⟨other, stands, rfl⟩ := List.mem_map.1 listed
  cases List.mem_singleton.1 last
  exact List.find?_eq_none.1 new other stands (decide_eq_true same)

theorem repeated?_eq_some_iff (seen : List Atom) {atoms : List Atom}
    (apart : (seen.map Atom.name).Nodup) {first again : Atom} :
    repeated? seen atoms = some (first, again) ↔
      ∃ front back, atoms = front ++ again :: back ∧ ((seen ++ front).map Atom.name).Nodup ∧
        first ∈ seen ++ front ∧ first.name = again.name := by
  induction atoms generalizing seen with
  | nil =>
      refine ⟨nofun, ?_⟩
      rintro ⟨front, back, whole, -⟩
      cases front <;> cases whole
  | cons leaf atoms ih =>
      rw [repeated?]
      cases found : seen.find? (·.name = leaf.name) with
      | some first' =>
          have stands := List.mem_of_find?_eq_some found
          have same : first'.name = leaf.name := by simpa using List.find?_some found
          constructor
          · rintro ⟨⟩
            exact ⟨[], atoms, rfl, by rwa [List.append_nil], by rwa [List.append_nil], same⟩
          · rintro ⟨front, back, whole, apart', stands', same'⟩
            cases front with
            | nil =>
                cases whole
                rw [List.append_nil] at stands'
                rw [List.inj_on_of_nodup_map apart stands stands' (same.trans same'.symm)]
            | cons leaf' front =>
                -- the name of the leaf is among those before it
                cases whole
                have inside := List.mem_append_left front (List.mem_singleton_self leaf)
                exact absurd same (name_ne_of_nodup apart' stands inside)
      | none =>
          rw [ih _ (nodup_names_concat apart found)]
          constructor
          · rintro ⟨front, back, rfl, apart', stands, same⟩
            rw [List.append_assoc] at apart' stands
            exact ⟨leaf :: front, back, rfl, apart', stands, same⟩
          · rintro ⟨front, back, whole, apart', stands, same⟩
            cases front with
            | nil =>
                cases whole
                rw [List.append_nil] at stands
                exact absurd (decide_eq_true same) (List.find?_eq_none.1 found first stands)
            | cons leaf' front =>
                cases whole
                refine ⟨front, back, rfl, ?_, ?_, same⟩
                · rwa [List.append_assoc]
                · rwa [List.append_assoc]

theorem repeated?_eq_none_iff (seen : List Atom) {atoms : List Atom}
    (apart : (seen.map Atom.name).Nodup) :
    repeated? seen atoms = none ↔ ((seen ++ atoms).map Atom.name).Nodup := by
  induction atoms generalizing seen with
  | nil => simpa [repeated?] using apart
  | cons leaf atoms ih =>
      rw [repeated?]
      cases found : seen.find? (·.name = leaf.name) with
      | some first =>
          refine ⟨nofun, fun apart' => ?_⟩
          have same : first.name = leaf.name := by simpa using List.find?_some found
          have stands := List.mem_of_find?_eq_some found
          exact absurd same (name_ne_of_nodup apart' stands List.mem_cons_self)
      | none =>
          rw [ih _ (nodup_names_concat apart found), List.append_assoc]
          rfl

theorem isFirstRepetition_iff {atoms : List Atom} {first again : Atom} :
    IsFirstRepetition atoms first again ↔ repeated? [] atoms = some (first, again) :=
  (repeated?_eq_some_iff [] List.nodup_nil).symm

theorem nodup_names_iff {atoms : List Atom} :
    (atoms.map Atom.name).Nodup ↔ repeated? [] atoms = none :=
  (repeated?_eq_none_iff [] List.nodup_nil).symm

/-- There is a first repetition if there is any. -/
theorem exists_isFirstRepetition_iff {atoms : List Atom} :
    (∃ first again, IsFirstRepetition atoms first again) ↔ ¬ (atoms.map Atom.name).Nodup := by
  simp only [isFirstRepetition_iff, nodup_names_iff]
  cases repeated? [] atoms with
  | none => simp
  | some pair => exact ⟨fun _ => nofun, fun _ => ⟨pair.1, pair.2, rfl⟩⟩

namespace Declaration

/-- The name stands in one of the relations. -/
def Mentions (declaration : Declaration) (name : String) : Prop :=
  ∃ relation ∈ declaration.corollary :: declaration.conditions,
    ∃ leaf ∈ relation.atoms, leaf.name = name

/-- The relations do not mention the quantified symbol, and mention all those before it. -/
def IsFirstUnmentioned (declaration : Declaration) (leaf : Atom) : Prop :=
  ∃ front back, declaration.quantified = front ++ leaf :: back ∧
    ¬ declaration.Mentions leaf.name ∧ ∀ earlier ∈ front, declaration.Mentions earlier.name

variable {declaration : Declaration}

theorem any_atoms_iff {name : String} :
    declaration.atoms.any (fun leaf => decide (leaf.name = name)) = true ↔
      declaration.Mentions name := by
  simp only [List.any_eq_true, decide_eq_true_eq, atoms, List.mem_flatMap, Mentions]
  constructor
  · rintro ⟨leaf, ⟨relation, listed, stands⟩, same⟩
    exact ⟨relation, listed, leaf, stands, same⟩
  · rintro ⟨relation, listed, leaf, stands, same⟩
    exact ⟨leaf, ⟨relation, listed, stands⟩, same⟩

theorem unused?_eq_some_iff {leaf : Atom} :
    declaration.unused? = some leaf ↔ declaration.IsFirstUnmentioned leaf := by
  rw [unused?, List.find?_eq_some_iff_append]
  simp only [Bool.not_eq_eq_eq_not, Bool.not_true, ← Bool.not_eq_true, any_atoms_iff,
    Classical.not_not, IsFirstUnmentioned]
  constructor
  · rintro ⟨unmentioned, front, back, whole, mentioned⟩
    exact ⟨front, back, whole, unmentioned, mentioned⟩
  · rintro ⟨front, back, whole, unmentioned, mentioned⟩
    exact ⟨unmentioned, front, back, whole, mentioned⟩

theorem unused?_eq_none_iff :
    declaration.unused? = none ↔
      ∀ leaf ∈ declaration.quantified, declaration.Mentions leaf.name := by
  rw [unused?, List.find?_eq_none]
  simp only [Bool.not_eq_eq_eq_not, Bool.not_true, ← Bool.not_eq_true, any_atoms_iff,
    Classical.not_not]

end Declaration

/-! ## Rules -/

/-- Nothing is erased from a list in which nothing is repeated. -/
theorem eraseDups_eq_self {symbols : List Symbol} (apart : symbols.Nodup) :
    symbols.eraseDups = symbols := by
  induction symbols with
  | nil => rfl
  | cons symbol symbols ih =>
      obtain ⟨new, apart⟩ := List.nodup_cons.1 apart
      have others : symbols.filter (fun other => !other == symbol) = symbols := by
        rw [List.filter_eq_self]
        intro other stands
        have different : other ≠ symbol := fun same => new (same ▸ stands)
        simp [different]
      rw [List.eraseDups_cons, others, ih apart]

namespace Declaration

/-- The rule has the name and the quantified symbols of the declaration, and means the same. -/
structure Describes (declaration : Declaration) (rule : Rule) : Prop where
  name : rule.name = declaration.name.name
  quantified : rule.quantified = declaration.quantified.map Atom.symbol
  nodup : rule.quantified.Nodup
  occurs : ∀ symbol ∈ rule.quantified, ∃ disjunct ∈ rule.disjuncts, symbol ∈ disjunct.atoms
  means : ∀ {α : Type u} (I : Interpretation α) (values : Symbol → α),
    (∃ disjunct ∈ rule.disjuncts, disjunct.Holds (I.assign rule.quantified values)) ↔
      declaration.Says (I.assign rule.quantified values).reading

variable {declaration : Declaration}

/-- That one of the disjuncts holds is that the corollary does or one of the conditions does not. -/
theorem exists_holds_iff (I : Interpretation α) :
    (∃ disjunct ∈ declaration.corollary.toRelation ::
        (declaration.conditions.map Comparison.toRelation).map Relation.negate, disjunct.Holds I) ↔
      declaration.Says I.reading := by
  simp only [List.mem_cons, List.mem_map, exists_eq_or_imp, exists_exists_and_eq_and,
    Relation.holds_negate, Comparison.holds_toRelation, Says]
  constructor
  · rintro (holds | ⟨condition, listed, fails⟩) all
    · exact holds
    · exact absurd (all condition listed) fails
  · intro implied
    by_cases all : ∀ condition ∈ declaration.conditions, condition.Says I.reading
    · exact .inl (implied all)
    · obtain ⟨condition, fails⟩ := Classical.not_forall.1 all
      exact .inr ⟨condition, Classical.not_imp.1 fails⟩

theorem describes (apart : (declaration.quantified.map Atom.name).Nodup)
    (mentioned : ∀ leaf ∈ declaration.quantified, declaration.Mentions leaf.name) :
    declaration.Describes (.implication declaration.name.name
      (declaration.quantified.map Atom.symbol) declaration.corollary.toRelation
      (declaration.conditions.map Comparison.toRelation)) := by
  have symbols : (declaration.quantified.map Atom.symbol).Nodup := by
    have names : (declaration.quantified.map Atom.symbol).map Symbol.name =
        declaration.quantified.map Atom.name := List.map_map
    exact List.Nodup.of_map _ (names ▸ apart)
  have same := eraseDups_eq_self symbols
  refine ⟨rfl, same, ?_, fun symbol listed => ?_, fun I values => exists_holds_iff _⟩
  · rwa [Rule.implication, Rule.ofDisjuncts, same]
  · rw [Rule.implication, Rule.ofDisjuncts, same] at listed
    obtain ⟨leaf, stands, rfl⟩ := List.mem_map.1 listed
    obtain ⟨relation, member, leaf', inside, called⟩ := mentioned leaf stands
    have alike : leaf'.symbol = leaf.symbol := by rw [Atom.symbol, Atom.symbol, called]
    have occurs : leaf.symbol ∈ relation.toRelation.atoms := by
      rw [Comparison.atoms_toRelation, ← alike]
      exact List.mem_map_of_mem inside
    rcases List.mem_cons.1 member with rfl | condition
    · exact ⟨_, List.mem_cons_self, occurs⟩
    · refine ⟨relation.toRelation.negate, List.mem_cons_of_mem _ ?_, occurs⟩
      exact List.mem_map_of_mem (List.mem_map_of_mem condition)

/-- What a declaration is refused for, and what it is read as if it is not refused. -/
structure Exact (declaration : Declaration) : Prop where
  duplicate : (∃ name spans,
      declaration.toRule = .error ⟨.duplicateQuantifier name, spans⟩) ↔
    ¬ (declaration.quantified.map Atom.name).Nodup
  repetition : ∀ name spans, declaration.toRule = .error ⟨.duplicateQuantifier name, spans⟩ →
    ∃ first again, IsFirstRepetition declaration.quantified first again ∧
      name = again.name ∧ spans = [first.span, again.span]
  unused : (∃ name spans, declaration.toRule = .error ⟨.unusedQuantifier name, spans⟩) ↔
    (declaration.quantified.map Atom.name).Nodup ∧
      ∃ leaf ∈ declaration.quantified, ¬ declaration.Mentions leaf.name
  unmentioned : ∀ name spans, declaration.toRule = .error ⟨.unusedQuantifier name, spans⟩ →
    ∃ leaf, declaration.IsFirstUnmentioned leaf ∧ name = leaf.name ∧ spans = [leaf.span]
  rule : (declaration.quantified.map Atom.name).Nodup →
    (∀ leaf ∈ declaration.quantified, declaration.Mentions leaf.name) →
    ∃ rule, declaration.toRule = .ok rule ∧ Describes.{u} declaration rule

theorem toRule_eq_duplicate_iff {name : String} {spans : List Span} :
    declaration.toRule = .error ⟨.duplicateQuantifier name, spans⟩ ↔
      ∃ first again, IsFirstRepetition declaration.quantified first again ∧
        name = again.name ∧ spans = [first.span, again.span] := by
  simp only [isFirstRepetition_iff]
  rw [toRule]
  cases repeated? [] declaration.quantified with
  | some pair =>
      constructor
      · rintro ⟨⟩
        exact ⟨pair.1, pair.2, rfl, rfl, rfl⟩
      · rintro ⟨first, again, ⟨⟩, rfl, rfl⟩
        rfl
  | none =>
      refine ⟨fun refused => ?_, fun ⟨_, _, found, _⟩ => nomatch found⟩
      cases found : declaration.unused? <;> rw [found] at refused <;> cases refused

theorem toRule_eq_unused_iff {name : String} {spans : List Span} :
    declaration.toRule = .error ⟨.unusedQuantifier name, spans⟩ ↔
      (declaration.quantified.map Atom.name).Nodup ∧
        ∃ leaf, declaration.IsFirstUnmentioned leaf ∧ name = leaf.name ∧ spans = [leaf.span] := by
  simp only [nodup_names_iff, ← unused?_eq_some_iff]
  rw [toRule]
  cases repeated? [] declaration.quantified with
  | some pair =>
      refine ⟨fun refused => ?_, fun single => nomatch single.1⟩
      cases refused
  | none =>
      cases declaration.unused? with
      | some leaf =>
          constructor
          · rintro ⟨⟩
            exact ⟨rfl, leaf, rfl, rfl, rfl⟩
          · rintro ⟨-, leaf, ⟨⟩, rfl, rfl⟩
            rfl
      | none =>
          refine ⟨fun refused => ?_, fun ⟨_, _, found, _⟩ => nomatch found⟩
          cases refused

/-- A declaration is read as an implication unless a symbol is repeated or not mentioned. -/
theorem toRule_eq_ok_iff :
    declaration.toRule = .ok rule ↔ (declaration.quantified.map Atom.name).Nodup ∧
      (∀ leaf ∈ declaration.quantified, declaration.Mentions leaf.name) ∧
      rule = .implication declaration.name.name (declaration.quantified.map Atom.symbol)
        declaration.corollary.toRelation (declaration.conditions.map Comparison.toRelation) := by
  rw [nodup_names_iff, ← unused?_eq_none_iff, toRule]
  cases repeated? [] declaration.quantified with
  | some pair => exact iff_of_false nofun fun accepted => nomatch accepted.1
  | none =>
      cases declaration.unused? with
      | some leaf => exact iff_of_false nofun fun accepted => nomatch accepted.2.1
      | none => simp [eq_comm]

theorem exists_isFirstUnmentioned_iff :
    (∃ leaf, declaration.IsFirstUnmentioned leaf) ↔
      ∃ leaf ∈ declaration.quantified, ¬ declaration.Mentions leaf.name := by
  simp only [← unused?_eq_some_iff]
  cases found : declaration.unused? with
  | some leaf =>
      obtain ⟨front, back, whole, unmentioned, -⟩ := unused?_eq_some_iff.1 found
      refine ⟨fun _ => ⟨leaf, ?_, unmentioned⟩, fun _ => ⟨leaf, rfl⟩⟩
      exact whole ▸ List.mem_append_right _ List.mem_cons_self
  | none =>
      have mentioned := unused?_eq_none_iff.1 found
      constructor
      · rintro ⟨leaf, ⟨⟩⟩
      · rintro ⟨leaf, stands, unmentioned⟩
        exact absurd (mentioned leaf stands) unmentioned

/-- A declaration is refused for the first quantified symbol that repeats one, or else for the first
that it does not mention, and is otherwise read as a rule that means the same in every
interpretation. -/
theorem toRule_exact (declaration : Declaration) : Exact.{u} declaration := by
  constructor
  case duplicate =>
    simp only [← exists_isFirstRepetition_iff, toRule_eq_duplicate_iff]
    constructor
    · rintro ⟨_, _, first, again, repeats, -⟩
      exact ⟨first, again, repeats⟩
    · rintro ⟨first, again, repeats⟩
      exact ⟨_, _, first, again, repeats, rfl, rfl⟩
  case repetition => exact fun name spans => toRule_eq_duplicate_iff.1
  case unused =>
    simp only [← exists_isFirstUnmentioned_iff, toRule_eq_unused_iff]
    constructor
    · rintro ⟨_, _, apart, leaf, first, -⟩
      exact ⟨apart, leaf, first⟩
    · rintro ⟨apart, leaf, first⟩
      exact ⟨_, _, apart, leaf, first, rfl, rfl⟩
  case unmentioned => exact fun name spans refused => (toRule_eq_unused_iff.1 refused).2
  case rule =>
    intro apart mentioned
    refine ⟨_, ?_, describes apart mentioned⟩
    rw [toRule, nodup_names_iff.1 apart, unused?_eq_none_iff.2 mentioned]

end Declaration

end Source

end Calculation
