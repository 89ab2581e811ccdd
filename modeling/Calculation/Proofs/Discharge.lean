import Calculation.Proofs.Capture
import Calculation.Theory

/-!
What several facts leave of the rules of a theory, and what is still suggested.

Every fact discharges one disjunct of each rule that it leaves something of (`Rule.Leaves`).  The
other disjuncts stay in their order, and the values that were found are put into all of them
(`Rule.Remains`).  So the number of facts tells which rules suggest something in the end: those that
had one disjunct more.

* `Rule.Leaves.remains`: what facts leave of a rule, whichever they are.
* `Theory.suggestions_foldl_resolve`: what is suggested comes from the rules with one disjunct more
  than there are facts.
-/

namespace Calculation

/-! ## Replacing atoms twice -/

namespace Expr

/-- Replacing the atoms in what atoms were replaced by. -/
theorem replaceAtoms_replaceAtoms (f g : Symbol → Expr) (expr : Expr) :
    (expr.replaceAtoms f).replaceAtoms g =
      expr.replaceAtoms fun symbol => (f symbol).replaceAtoms g := by
  induction expr with
  | atom symbol => rfl
  | unary operator operand ih => rw [replaceAtoms, replaceAtoms, ih, replaceAtoms]
  | binary operator lhs rhs ihl ihr => rw [replaceAtoms, replaceAtoms, ihl, ihr, replaceAtoms]

theorem replaceAtoms_atom (expr : Expr) : expr.replaceAtoms atom = expr := by
  induction expr with
  | atom symbol => rfl
  | unary operator operand ih => rw [replaceAtoms, ih]
  | binary operator lhs rhs ihl ihr => rw [replaceAtoms, ihl, ihr]

/-- An atom that is replaced by itself is still there. -/
theorem mem_atoms_replaceAtoms {f : Symbol → Expr} {expr : Expr} {symbol : Symbol}
    (mem : symbol ∈ expr.atoms) (same : f symbol = .atom symbol) :
    symbol ∈ (expr.replaceAtoms f).atoms := by
  induction expr with
  | atom source =>
      cases List.mem_singleton.1 mem
      rw [replaceAtoms, same]
      exact List.mem_singleton_self _
  | unary operator operand ih => exact ih mem
  | binary operator lhs rhs ihl ihr =>
      rcases List.mem_append.1 mem with left | right
      · exact List.mem_append_left _ (ihl left)
      · exact List.mem_append_right _ (ihr right)

end Expr

namespace Relation

theorem replaceAtoms_replaceAtoms (f g : Symbol → Expr) (relation : Relation) :
    (relation.replaceAtoms f).replaceAtoms g =
      relation.replaceAtoms fun symbol => (f symbol).replaceAtoms g := by
  rw [replaceAtoms, replaceAtoms, Expr.replaceAtoms_replaceAtoms, Expr.replaceAtoms_replaceAtoms,
    replaceAtoms]

theorem replaceAtoms_atom (relation : Relation) : relation.replaceAtoms .atom = relation := by
  rw [replaceAtoms, Expr.replaceAtoms_atom, Expr.replaceAtoms_atom]

theorem mem_atoms_replaceAtoms {f : Symbol → Expr} {relation : Relation} {symbol : Symbol}
    (mem : symbol ∈ relation.atoms) (same : f symbol = .atom symbol) :
    symbol ∈ (relation.replaceAtoms f).atoms := by
  rcases List.mem_append.1 mem with left | right
  · exact List.mem_append_left _ (Expr.mem_atoms_replaceAtoms left same)
  · exact List.mem_append_right _ (Expr.mem_atoms_replaceAtoms right same)

end Relation

/-! ## What is left of a rule -/

namespace Rule

variable {rule middle left : Rule} {fact : Relation} {facts : List Relation} {count more : Nat}

/-- What the facts leave of a rule, each of them discharging a disjunct that it refutes.  Nothing is
left of a rule with a single disjunct. -/
inductive Leaves : List Relation → Rule → Rule → Prop
  | untouched (rule : Rule) : Leaves [] rule rule
  | discharged {fact : Relation} {facts : List Relation} {rule left : Rule} (index : Nat)
      (bindings : Bindings) (several : 2 ≤ rule.disjuncts.length)
      (refuted : rule.Refuted fact index bindings)
      (later : Leaves facts (rule.discharge index bindings) left) : Leaves (fact :: facts) rule left

/-- What remains of a rule if so many of its disjuncts are discharged: the others in their order,
with the same values put into all of them.  The constants among their atoms stay what they are. -/
structure Remains (rule : Rule) (count : Nat) (left : Rule) : Prop where
  name : left.name = rule.name
  disjuncts : ∃ (kept : List Relation) (values : Symbol → Expr),
    kept.Sublist rule.disjuncts ∧ kept.length + count = rule.disjuncts.length ∧
    left.disjuncts = kept.map (·.replaceAtoms values) ∧
    ∀ relation ∈ kept, ∀ symbol ∈ relation.atoms, symbol ∉ rule.quantified →
      values symbol = .atom symbol ∧ symbol ∉ left.quantified

namespace Remains

theorem refl (rule : Rule) : rule.Remains 0 rule where
  name := rfl
  disjuncts := by
    refine ⟨rule.disjuncts, .atom, List.Sublist.refl _, rfl, ?_,
      fun _ _ _ _ constant => ⟨rfl, constant⟩⟩
    rw [funext Relation.replaceAtoms_atom, List.map_id']

/-- Discharging disjuncts of what remains. -/
theorem trans (first : rule.Remains count middle) (second : middle.Remains more left) :
    rule.Remains (count + more) left := by
  obtain ⟨kept, values, sublist, length, disjuncts, constants⟩ := first.disjuncts
  obtain ⟨kept', values', sublist', length', disjuncts', constants'⟩ := second.disjuncts
  rw [disjuncts] at sublist' length'
  obtain ⟨last, fewer, rfl⟩ := List.sublist_map_iff.1 sublist'
  refine ⟨second.name.trans first.name, last, fun symbol => (values symbol).replaceAtoms values',
    fewer.trans sublist, ?_, ?_, ?_⟩
  · rw [List.length_map, List.length_map] at length'
    omega
  · rw [disjuncts', List.map_map]
    exact List.map_congr_left fun relation _ => relation.replaceAtoms_replaceAtoms values values'
  · intro relation mem symbol occurs constant
    obtain ⟨same, constant⟩ := constants relation (fewer.subset mem) symbol occurs constant
    obtain ⟨same', constant⟩ := constants' _ (List.mem_map_of_mem mem) symbol
      (Relation.mem_atoms_replaceAtoms occurs same) constant
    refine ⟨?_, constant⟩
    change (values symbol).replaceAtoms values' = .atom symbol
    rw [same]
    exact same'

theorem length_add (remains : rule.Remains count left) :
    left.disjuncts.length + count = rule.disjuncts.length := by
  obtain ⟨kept, values, -, length, disjuncts, -⟩ := remains.disjuncts
  rw [disjuncts, List.length_map, length]

end Remains

/-- A fact discharges the disjunct that it refutes, and puts the values found into the others. -/
theorem Refuted.remains {index : Nat} {bindings : Bindings}
    (refuted : rule.Refuted fact index bindings) :
    rule.Remains 1 (rule.discharge index bindings) := by
  obtain ⟨disjunct, answer, stands, matched⟩ := refuted
  obtain ⟨-, -, same, -⟩ := Relation.of_unify matched
  obtain ⟨quantified, after, apart, discharged⟩ := exists_of_discharge rule index same
  rw [discharged]
  refine ⟨rfl, rule.disjuncts.eraseIdx index, rule.replacement bindings (renamed after),
    List.eraseIdx_sublist .., ?_, ?_, ?_⟩
  · have inside := (List.getElem?_eq_some_iff.1 stands).1
    rw [List.length_eraseIdx_of_lt inside]
    omega
  · exact List.map_congr_left fun relation _ => apart.replaceAtoms_eq same relation
  · intro relation mem symbol occurs constant
    refine ⟨?_, fun listed => constant ?_⟩
    · rw [← apart.substitute_eq_replacement same, apart.substitute_eq same constant]
    · exact apart.mem_quantified (List.mem_of_mem_eraseIdx mem) occurs listed

/-- Facts discharge as many disjuncts as there are facts. -/
theorem Leaves.remains (leaves : Leaves facts rule left) : rule.Remains facts.length left := by
  induction leaves with
  | untouched rule => exact .refl rule
  | discharged index bindings several refuted later ih =>
      rw [List.length_cons, Nat.add_comm]
      exact refuted.remains.trans ih

end Rule

namespace Theory

variable {theory : Theory} {facts : List Relation} {left : Rule}

/-- All that is left of a theory is left of one of its rules. -/
theorem exists_leaves_of_mem (mem : left ∈ (facts.foldl Theory.resolve theory).rules) :
    ∃ rule ∈ theory.rules, Rule.Leaves facts rule left := by
  induction facts generalizing theory with
  | nil => exact ⟨left, mem, .untouched left⟩
  | cons fact facts ih =>
      obtain ⟨middle, resolved, later⟩ := ih mem
      obtain ⟨rule, listed, given⟩ := List.mem_flatMap.1 resolved
      obtain ⟨index, disjunct, stands, resolvent⟩ := Rule.exists_of_mem_resolvents given
      obtain ⟨answer, bindings, matched, rfl⟩ := Rule.resolvent?_eq_some_iff.1 resolvent
      have several : 2 ≤ rule.disjuncts.length := by
        unfold Rule.resolvents at given
        split at given
        · cases given
        · omega
      exact ⟨rule, listed,
        .discharged index bindings several ⟨disjunct, answer, stands, matched⟩ later⟩

/-- What nothing is made of can be left out. -/
theorem flatMap_eq_flatMap_filter {α β : Type} {make : α → List β} {wanted : α → Bool}
    {list : List α} (nothing : ∀ x ∈ list, ¬wanted x = true → make x = []) :
    list.flatMap make = (list.filter wanted).flatMap make := by
  induction list with
  | nil => rfl
  | cons x rest ih =>
      have later := ih fun y mem => nothing y (List.mem_cons_of_mem _ mem)
      rw [List.flatMap_cons, later, List.filter_cons]
      split
      · rw [List.flatMap_cons]
      · rename_i unwanted
        rw [nothing x List.mem_cons_self unwanted, List.nil_append]

/-- Facts are put into one rule after the other. -/
theorem rules_foldl_resolve (facts : List Relation) (theory : Theory) :
    (facts.foldl Theory.resolve theory).rules =
      theory.rules.flatMap fun rule => (facts.foldl Theory.resolve ⟨[rule]⟩).rules := by
  induction facts generalizing theory with
  | nil => exact (List.flatMap_singleton' theory.rules).symm
  | cons fact facts ih =>
      rw [List.foldl_cons, ih, resolve, List.flatMap_assoc]
      refine congrArg theory.rules.flatMap (funext fun rule => ?_)
      rw [List.foldl_cons, ih, resolve, List.flatMap_singleton]

/-- What is left of a rule suggests nothing unless the rule had one disjunct more than there are
facts. -/
theorem suggestions_eq_nil {rule : Rule} (length : rule.disjuncts.length ≠ facts.length + 1)
    (expr : Expr) : (facts.foldl Theory.resolve ⟨[rule]⟩).suggestions expr = [] := by
  have none : (facts.foldl Theory.resolve ⟨[rule]⟩).rules.filter Rule.isSimple = [] := by
    refine List.filter_eq_nil_iff.2 fun left mem simple => length ?_
    obtain ⟨rule', listed, leaves⟩ := exists_leaves_of_mem mem
    cases List.mem_singleton.1 listed
    rw [← leaves.remains.length_add, eq_of_beq simple, Nat.add_comm]
  rw [suggestions, none]
  rfl

/-- What is suggested comes from the rules with one disjunct more than there are facts. -/
theorem suggestions_foldl_resolve (facts : List Relation) (theory : Theory) (expr : Expr) :
    (facts.foldl Theory.resolve theory).suggestions expr =
      (theory.rules.filter fun rule => rule.disjuncts.length = facts.length + 1).flatMap
        fun rule => (facts.foldl Theory.resolve ⟨[rule]⟩).suggestions expr := by
  have each : (facts.foldl Theory.resolve theory).suggestions expr =
      theory.rules.flatMap fun rule => (facts.foldl Theory.resolve ⟨[rule]⟩).suggestions expr := by
    rw [suggestions, rules_foldl_resolve, List.filter_flatMap, List.flatMap_assoc]
    rfl
  rw [each]
  refine flatMap_eq_flatMap_filter fun rule _ other => suggestions_eq_nil ?_ expr
  exact of_decide_eq_false (Bool.eq_false_iff.2 other)

/-- Once `a = b` is known, a product is rewritten by the rule that says so under the condition, and
no longer by commutativity. -/
example :
    let x : Expr := .named "x"
    let y : Expr := .named "y"
    let z : Expr := .named "z"
    let symbols : List Symbol := [{ name := "x" }, { name := "y" }, { name := "z" }]
    let theory : Theory := ⟨[.simple "commutativity" symbols ⟨x * y, .equal, y * x⟩,
      .implication "congruence" symbols ⟨x * z, .equal, y * z⟩ [⟨x, .equal, y⟩]]⟩
    (theory.resolve ⟨.named "a", .equal, .named "b"⟩).suggestions (.named "a" * .named "c") =
      [⟨.equal, .named "b" * .named "c"⟩] := by
  cbv

/-- A single fact leaves nothing of a simple rule. -/
theorem rules_eq_nil_of_isSimple {rule : Rule} (simple : rule.isSimple = true)
    (some : facts ≠ []) : (facts.foldl Theory.resolve ⟨[rule]⟩).rules = [] := by
  refine List.eq_nil_iff_forall_not_mem.2 fun left mem => ?_
  obtain ⟨rule', listed, leaves⟩ := exists_leaves_of_mem mem
  cases List.mem_singleton.1 listed
  cases leaves with
  | untouched => exact some rfl
  | discharged index bindings several =>
      rw [eq_of_beq simple] at several
      omega

end Theory

end Calculation
