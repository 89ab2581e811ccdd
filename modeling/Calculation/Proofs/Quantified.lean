import Mathlib.Data.List.Nodup
import Calculation.Proofs.Capture
import Calculation.Proofs.Meaning
import Calculation.Proofs.Printing

/-!
The list of quantified symbols, from reduction to reduction.

A rule is made without repetitions in this list (`Rule.Made.nodup`).  A reduction goes through the
list once, leaves out the symbols with values, and puts the symbol that each of the others becomes
in its place (`Rule.quantified_discharge`).  New names are not taken by what the rule or the values
mention, nor by each other.  What is not looked at are the symbols that stay as they are: one of
them that no disjunct mentions any more can be met by a new name (`Rule.Collides`), and then two
symbols have become one.

* `Rule.faithful_iff`: one reduction.
* `Rule.leftOver_faithful_iff`: reductions by one fact after the other.
* `Rule.not_forall_nodup_of_mem_resolvents`: two symbols become one.
-/

namespace Calculation

theorem nodup_eraseDups (symbols : List Symbol) : symbols.eraseDups.Nodup := by
  induction length : symbols.length using Nat.strongRecOn generalizing symbols with
  | ind length ih =>
      cases symbols with
      | nil => exact List.nodup_nil
      | cons symbol rest =>
          have shorter := List.length_filter_le (fun other => !other == symbol) rest
          rw [List.length_cons] at length
          rw [List.eraseDups_cons, List.nodup_cons, List.mem_eraseDups, List.mem_filter]
          refine ⟨?_, ih _ (by omega) _ rfl⟩
          rintro ⟨-, other⟩
          simp at other

namespace Rule

/-! ## Rules as they are made -/

/-- The rule was made, and not left over by a reduction. -/
inductive Made : Rule → Prop
  | ofDisjuncts (name : String) (quantified : List Symbol) (disjuncts : List Relation) :
    Made (.ofDisjuncts name quantified disjuncts)
  | simple (name : String) (quantified : List Symbol) (relation : Relation) :
    Made (.simple name quantified relation)
  | implication (name : String) (quantified : List Symbol) (corollary : Relation)
    (conditions : List Relation) : Made (.implication name quantified corollary conditions)
  | parse {source : String} {rule : Rule} (read : Rule.parse source = .ok rule) : Made rule

/-- What is read is an implication. -/
theorem exists_implication_of_parse {source : String} {rule : Rule}
    (read : Rule.parse source = .ok rule) : ∃ name quantified corollary conditions,
      rule = .implication name quantified corollary conditions := by
  obtain ⟨declaration, -, made⟩ := parse_eq_ok_iff.1 read
  obtain ⟨-, -, rfl⟩ := Source.Declaration.toRule_eq_ok_iff.1 made
  exact ⟨_, _, _, _, rfl⟩

theorem Made.nodup {rule : Rule} (made : rule.Made) : rule.quantified.Nodup := by
  cases made with
  | ofDisjuncts name quantified disjuncts => exact nodup_eraseDups quantified
  | simple name quantified relation => exact nodup_eraseDups quantified
  | implication name quantified corollary conditions => exact nodup_eraseDups quantified
  | parse read =>
      obtain ⟨name, quantified, corollary, conditions, rfl⟩ := exists_implication_of_parse read
      exact nodup_eraseDups quantified

/-! ## One reduction -/

section

variable (rule : Rule) (bindings : Bindings)

/-- The quantified symbols without a value, in the order of the rule. -/
def openSymbols : List Symbol := rule.quantified.filter fun symbol => !bindings.isBound symbol

/-- The names that no new symbol gets: those in the disjuncts and those in the values. -/
def takenNames : List String :=
  (rule.disjuncts.flatMap Relation.symbols).map Symbol.name ++ bindings.namesInValues

/-- The table with the new symbols of those that have no value. -/
def keptTable : Bindings :=
  (keepApart bindings.namesInValues rule.quantified bindings (rule.takenNames bindings)).2

/-- The symbol that a symbol without a value becomes. -/
def newSymbol (symbol : Symbol) : Symbol := renamed (rule.keptTable bindings) symbol

/-- A symbol that is renamed becomes one that keeps its name. -/
def Collides : Prop :=
  ∃ symbol other, rule.LeavesOpen bindings symbol ∧ rule.LeavesOpen bindings other ∧
    symbol.name ∉ bindings.namesInValues ∧ other.name ∈ bindings.namesInValues ∧
    rule.newSymbol bindings other = symbol

/-- The symbols without a value are kept apart when the disjunct at `index` is left out. -/
structure Faithful (index : Nat) : Prop where
  nodup : (rule.discharge index bindings).quantified.Nodup
  length : (rule.discharge index bindings).quantified.length = (rule.openSymbols bindings).length
  /-- The symbols are replaced in the disjuncts, and stay apart whether they occur there or not. -/
  leaves : rule.LeavesBehind index bindings (rule.newSymbol bindings)
    (rule.discharge index bindings)
  distinct : ∀ symbol other, rule.LeavesOpen bindings symbol → rule.LeavesOpen bindings other →
    rule.newSymbol bindings symbol = rule.newSymbol bindings other → symbol = other

end

variable {rule : Rule} {bindings : Bindings} {symbol other : Symbol}

theorem mem_openSymbols_iff :
    symbol ∈ rule.openSymbols bindings ↔ rule.LeavesOpen bindings symbol := by
  rw [openSymbols, List.mem_filter, LeavesOpen, Bindings.isBound]
  simp

/-- In a list without repetitions, the symbols that have no value are replaced one by one. -/
theorem quantified_keepApart (captured : List String) {symbols : List Symbol}
    (apart : symbols.Nodup) (before : Bindings) (taken : List String)
    (listed : ∀ symbol ∈ symbols, symbol ∈ before.quantified) :
    (keepApart captured symbols before taken).1 =
      (symbols.filter fun symbol => !before.isBound symbol).map
        (renamed (keepApart captured symbols before taken).2) := by
  induction symbols generalizing before taken with
  | nil => rfl
  | cons symbol rest ih =>
      have restListed := fun other mem => listed other (List.mem_cons_of_mem symbol mem)
      obtain ⟨new, restApart⟩ := List.nodup_cons.1 apart
      cases bound : before.isBound symbol with
      | true =>
          rw [keepApart, if_pos bound, List.filter_cons_of_neg (by simp [bound])]
          exact ih restApart before taken restListed
      | false =>
          have free : before.get? symbol = none := by
            rwa [Bindings.isBound, Option.isSome_eq_false_iff, Option.isNone_iff_eq_none] at bound
          rw [keepApart, if_neg (by simp [bound]), List.filter_cons_of_pos (by simp [bound])]
          by_cases mem : symbol.name ∈ captured
          · obtain ⟨middle, known⟩ := Bindings.exists_bind?
              (.atom { name := freshName symbol.name taken }) (listed symbol List.mem_cons_self) free
            have stillListed : ∀ other ∈ rest, other ∈ middle.quantified := by
              rw [(Bindings.bind?_eq_some_iff.1 known).2.1]
              exact restListed
            -- the list is gone through with the new binding, which is no value of a later symbol
            have same : ∀ other ∈ rest, (!middle.isBound other) = !before.isBound other := by
              intro other later
              have different : symbol ≠ other := fun same => new (same ▸ later)
              rw [Bindings.isBound, Bindings.get?_of_bind? known, if_neg different]
              rfl
            simp only [if_pos mem, Symbol.fresh, known, Option.getD_some, List.map_cons]
            have spec := keepApart_spec captured rest middle
              (freshName symbol.name taken :: taken) stillListed
            have value := spec.kept ((Bindings.get?_of_bind? known symbol).trans (if_pos rfl))
            rw [ih restApart middle _ stillListed, List.filter_congr same, renamed, Expr.substitute,
              value]
            rfl
          · have spec := keepApart_spec captured rest before taken restListed
            have value := (spec.untouched mem).trans free
            rw [if_neg mem, List.map_cons, renamed, Expr.substitute]
            dsimp only
            rw [value, ← ih restApart before taken restListed]
            rfl

/-! ## What becomes of the symbols -/

section

variable (same : bindings.quantified = rule.quantified) (index : Nat)

include same

theorem leftApart_keptTable : rule.LeftApart bindings (rule.discharge index bindings).quantified
    (rule.keptTable bindings) :=
  keepApart_spec _ _ _ _ fun _ mem => same ▸ mem

theorem leavesBehind_newSymbol : rule.LeavesBehind index bindings (rule.newSymbol bindings)
    (rule.discharge index bindings) :=
  (leftApart_keptTable same index).leavesBehind same index

/-- The symbols without a value are replaced one by one. -/
theorem quantified_discharge (apart : rule.quantified.Nodup) :
    (rule.discharge index bindings).quantified =
      (rule.openSymbols bindings).map (rule.newSymbol bindings) :=
  quantified_keepApart _ apart _ _ fun _ mem => same ▸ mem

omit index in
/-- What is renamed gets a name that is not taken. -/
theorem name_newSymbol_not_mem (stays : rule.LeavesOpen bindings symbol)
    (captured : symbol.name ∈ bindings.namesInValues) :
    (rule.newSymbol bindings symbol).name ∉ rule.takenNames bindings := by
  have left := leftApart_keptTable same 0
  obtain ⟨listed, substituted⟩ := left.substitute_of_leavesOpen stays
  rcases left.fresh stays.1 stays.2 substituted with itself | fresh
  · rcases left.origin listed with ⟨-, free⟩ | fresh
    · exact absurd captured (itself ▸ free)
    · exact fresh
  · exact fresh

omit index in
/-- Two symbols become one only if one of them keeps its name. -/
theorem eq_or_collides (stays : rule.LeavesOpen bindings symbol)
    (stays' : rule.LeavesOpen bindings other)
    (one : rule.newSymbol bindings symbol = rule.newSymbol bindings other) :
    symbol = other ∨ rule.Collides bindings := by
  have left := leftApart_keptTable same 0
  have leaves := leavesBehind_newSymbol same 0
  by_cases captured : symbol.name ∈ bindings.namesInValues
  · by_cases captured' : other.name ∈ bindings.namesInValues
    · -- the new names are taken one after the other
      refine .inl (left.distinct stays.1 stays'.1 stays.2 stays'.2
        (List.mem_append_right _ captured) (List.mem_append_right _ captured') ?_)
      rw [(left.substitute_of_leavesOpen stays).2, (left.substitute_of_leavesOpen stays').2]
      exact congrArg Expr.atom one
    · refine .inr ⟨other, symbol, stays', stays, captured', captured, ?_⟩
      rw [one, leaves.unchanged other stays' captured']
  · have itself := leaves.unchanged symbol stays captured
    by_cases captured' : other.name ∈ bindings.namesInValues
    · exact .inr ⟨symbol, other, stays, stays', captured, captured', one.symm.trans itself⟩
    · rw [itself, leaves.unchanged other stays' captured'] at one
      exact .inl one

/-- A symbol that is met by a new name is mentioned by no disjunct. -/
theorem Collides.exists_unmentioned (collides : rule.Collides bindings) :
    ∃ symbol, rule.LeavesOpen bindings symbol ∧
      ∀ disjunct ∈ rule.disjuncts, symbol ∉ disjunct.atoms := by
  obtain ⟨symbol, other, stays, stays', -, captured, rfl⟩ := collides
  refine ⟨_, stays, fun disjunct mem occurs => name_newSymbol_not_mem same stays' captured ?_⟩
  have used := List.mem_flatMap.2 ⟨disjunct, mem, Relation.mem_symbols_of_mem_atoms occurs⟩
  exact List.mem_append_left _ (List.mem_map_of_mem used)

theorem faithful_iff (apart : rule.quantified.Nodup) :
    rule.Faithful bindings index ↔ ¬ rule.Collides bindings := by
  have leaves := leavesBehind_newSymbol same index
  have list := quantified_discharge same index apart
  constructor
  · rintro faithful ⟨symbol, other, stays, stays', free, captured, met⟩
    have itself := leaves.unchanged symbol stays free
    cases faithful.distinct symbol other stays stays' (itself.trans met.symm)
    exact free captured
  · intro spared
    have distinct : ∀ symbol other, rule.LeavesOpen bindings symbol →
        rule.LeavesOpen bindings other →
        rule.newSymbol bindings symbol = rule.newSymbol bindings other → symbol = other :=
      fun symbol other stays stays' one =>
        (eq_or_collides same stays stays' one).resolve_right spared
    refine ⟨?_, ?_, leaves, distinct⟩
    · have openApart : (rule.openSymbols bindings).Nodup := apart.filter _
      rw [list, List.nodup_map_iff_inj_on openApart]
      intro symbol mem other mem'
      exact distinct symbol other (mem_openSymbols_iff.1 mem) (mem_openSymbols_iff.1 mem')
    · rw [list, List.length_map]

end

/-! ## One fact after the other -/

/-- What is left of the rule after the facts, for each disjunct that one of them refutes. -/
def leftOver (rule : Rule) : List Relation → List Rule
  | [] => [rule]
  | fact :: rest => (rule.resolvents fact).flatMap (·.leftOver rest)

/-- A disjunct that was left out of a rule, for the values in the table. -/
structure Reduction where
  rule : Rule
  bindings : Bindings
  index : Nat

/-- The rule that was left. -/
def Reduction.left (reduction : Reduction) : Rule :=
  reduction.rule.discharge reduction.index reduction.bindings

def Reduction.Faithful (reduction : Reduction) : Prop :=
  reduction.rule.Faithful reduction.bindings reduction.index

def Reduction.Collides (reduction : Reduction) : Prop :=
  reduction.rule.Collides reduction.bindings

/-- The reductions by which the facts, one after the other, lead from a rule to what is left. -/
inductive Reduces : Rule → List Relation → List Reduction → Rule → Prop
  | done (rule : Rule) : Reduces rule [] [] rule
  | step {rule last : Rule} {fact : Relation} {index : Nat} {bindings : Bindings}
    {facts : List Relation} {reductions : List Reduction} (several : 2 ≤ rule.disjuncts.length)
    (refuted : rule.Refuted fact index bindings)
    (later : Reduces (rule.discharge index bindings) facts reductions last) :
    Reduces rule (fact :: facts) (⟨rule, bindings, index⟩ :: reductions) last

theorem mem_leftOver_iff {left : Rule} {facts : List Relation} :
    left ∈ rule.leftOver facts ↔ ∃ reductions, rule.Reduces facts reductions left := by
  induction facts generalizing rule with
  | nil =>
      rw [leftOver, List.mem_singleton]
      constructor
      · rintro rfl
        exact ⟨[], .done left⟩
      · rintro ⟨reductions, reduces⟩
        cases reduces
        rfl
  | cons fact facts ih =>
      rw [leftOver, List.mem_flatMap]
      constructor
      · rintro ⟨next, mem, later⟩
        obtain ⟨several, index, bindings, refuted, rfl⟩ := mem_resolvents_iff.1 mem
        obtain ⟨reductions, reduces⟩ := ih.1 later
        exact ⟨_, .step several refuted reduces⟩
      · rintro ⟨reductions, reduces⟩
        cases reduces with
        | step several refuted later =>
            exact ⟨_, mem_resolvents_iff.2 ⟨several, _, _, refuted, rfl⟩, ih.2 ⟨_, later⟩⟩

theorem Refuted.quantified_eq {fact : Relation} {index : Nat}
    (refuted : rule.Refuted fact index bindings) : bindings.quantified = rule.quantified := by
  obtain ⟨disjunct, answer, -, matched⟩ := refuted
  exact (Relation.of_unify matched).2.2.1

section

variable {last : Rule} {facts : List Relation} {reductions : List Reduction}

theorem Reduces.exists_unmentioned (reduces : rule.Reduces facts reductions last) :
    ∀ reduction ∈ reductions, reduction.Collides → ∃ symbol,
      reduction.rule.LeavesOpen reduction.bindings symbol ∧
        ∀ disjunct ∈ reduction.rule.disjuncts, symbol ∉ disjunct.atoms := by
  induction reduces with
  | done rule => exact fun reduction mem => nomatch mem
  | step several refuted later ih =>
      intro reduction mem collides
      rcases List.mem_cons.1 mem with rfl | mem
      · exact Collides.exists_unmentioned refuted.quantified_eq collides
      · exact ih reduction mem collides

/-- As long as no two symbols become one, the list has no repetitions and the next reduction is
judged by itself. -/
theorem Reduces.faithful_iff (reduces : rule.Reduces facts reductions last)
    (apart : rule.quantified.Nodup) :
    (∀ reduction ∈ reductions, reduction.Faithful) ↔
      ∀ reduction ∈ reductions, ¬ reduction.Collides := by
  induction reduces with
  | done rule =>
      exact iff_of_true (fun reduction mem => nomatch mem) (fun reduction mem => nomatch mem)
  | @step rule last fact index bindings facts reductions several refuted later ih =>
      have first : rule.Faithful bindings index ↔ ¬ rule.Collides bindings :=
        Rule.faithful_iff refuted.quantified_eq index apart
      rw [List.forall_mem_cons, List.forall_mem_cons]
      constructor
      · rintro ⟨faithful, rest⟩
        exact ⟨first.1 faithful, (ih faithful.nodup).1 rest⟩
      · rintro ⟨spared, rest⟩
        have faithful := first.2 spared
        exact ⟨faithful, (ih faithful.nodup).2 rest⟩

end

/-- What is left of a rule that was made comes about by reductions.  All of them keep the symbols
apart if and only if none gives a symbol the name of another one that keeps it.  That can only
happen to a symbol that no disjunct mentions any more. -/
theorem leftOver_faithful_iff {rule : Rule} (made : rule.Made) (facts : List Relation) :
    (∀ left, left ∈ rule.leftOver facts ↔ ∃ reductions, rule.Reduces facts reductions left) ∧
      ∀ reductions left, rule.Reduces facts reductions left →
        ((∀ reduction ∈ reductions, reduction.Faithful) ↔
          ∀ reduction ∈ reductions, ¬ reduction.Collides) ∧
        ∀ reduction ∈ reductions, reduction.Collides → ∃ symbol,
          reduction.rule.LeavesOpen reduction.bindings symbol ∧
            ∀ disjunct ∈ reduction.rule.disjuncts, symbol ∉ disjunct.atoms := by
  refine ⟨fun left => mem_leftOver_iff, fun reductions left reduces => ⟨?_, ?_⟩⟩
  · exact reduces.faithful_iff made.nodup
  · exact reduces.exists_unmentioned

/-- One fact reduces the rule itself. -/
theorem Reduces.rule_eq {last : Rule} {fact : Relation} {reductions : List Reduction}
    (reduces : rule.Reduces [fact] reductions last) {reduction : Reduction}
    (mem : reduction ∈ reductions) : reduction.rule = rule := by
  cases reduces with
  | step several refuted later =>
      cases later
      cases List.mem_singleton.1 mem
      rfl

/-- The rule that `x ⋅ c = y ⋅ c` if `x = y`, for all of the symbols. -/
def cancellation (quantified : List Symbol) : Rule :=
  .implication "cancellation" quantified ⟨.named "x" * .named "c", .equal, .named "y" * .named "c"⟩
    [⟨.named "x", .equal, .named "y"⟩]

theorem leftOver_faithful_iff_cancellation :
    let rule := cancellation [{ name := "x" }, { name := "y" }, { name := "c" }]
    rule.Made ∧ ∃ reductions, rule.Reduces [⟨.named "a", .equal, .named "c"⟩] reductions
        ⟨"cancellation", [{ name := "C" }],
          [⟨.named "a" * .named "C", .equal, .named "c" * .named "C"⟩]⟩ ∧
      ∀ reduction ∈ reductions, reduction.Faithful := by
  intro rule
  have made : rule.Made := .implication ..
  obtain ⟨all, runs⟩ := leftOver_faithful_iff made [⟨.named "a", .equal, .named "c"⟩]
  have left : rule.leftOver [⟨.named "a", .equal, .named "c"⟩] =
      [⟨"cancellation", [{ name := "C" }],
        [⟨.named "a" * .named "C", .equal, .named "c" * .named "C"⟩]⟩] := by
    decide +kernel
  have mentioned : ∀ symbol ∈ rule.quantified, ∃ disjunct ∈ rule.disjuncts,
      symbol ∈ disjunct.atoms := by
    decide +kernel
  obtain ⟨reductions, reduces⟩ := (all _).1 (left ▸ List.mem_singleton_self _)
  obtain ⟨faithful, collisions⟩ := runs _ _ reduces
  refine ⟨made, reductions, reduces, faithful.2 fun reduction mem collides => ?_⟩
  obtain ⟨symbol, stays, unmentioned⟩ := collisions reduction mem collides
  obtain ⟨disjunct, stands, occurs⟩ := mentioned symbol (reduces.rule_eq mem ▸ stays.1)
  exact unmentioned disjunct (reduces.rule_eq mem ▸ stands) occurs

/-- Nothing in `x ⋅ c = y ⋅ c` is `C`, so `c` becomes `C` where a fact is about a constant `c`, and
then there are two of them. -/
theorem not_forall_nodup_of_mem_resolvents :
    ¬ ∀ rule : Rule, rule.Made → ∀ fact, ∀ left ∈ rule.resolvents fact, left.quantified.Nodup := by
  intro nodup
  have left : (cancellation [{ name := "x" }, { name := "y" }, { name := "c" },
      { name := "C" }]).resolvents ⟨.named "a", .equal, .named "c"⟩ =
      [⟨"cancellation", [{ name := "C" }, { name := "C" }],
        [⟨.named "a" * .named "C", .equal, .named "c" * .named "C"⟩]⟩] := by
    decide +kernel
  have twice := nodup _ (.implication ..) _ _ (left ▸ List.mem_singleton_self _)
  exact (List.nodup_cons.1 twice).1 (List.mem_singleton_self _)

end Rule

end Calculation
