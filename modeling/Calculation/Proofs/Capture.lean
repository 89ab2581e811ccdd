import Calculation.Proofs.Resolution

/-!
What becomes of every atom of a rule when a fact discharges one of its disjuncts.

The atoms of the other disjuncts have values, or are quantified and may get new names, or are
constants.  An atom of what is left descends from one of them: from the one that stands where it
does, or above, if it belongs to a value that was put there (`Relation.Descends`).  It is quantified
exactly if that one was a quantified symbol without a value.

* `Relation.exists_descends`, `Relation.Descends.eq`: every atom of a relation whose atoms were
  replaced descends from one of them, and from no other.
* `Rule.resolvents_capture_nothing`: all that is left of a rule is left behind as
  `Rule.LeavesBehind` says.
-/

namespace Calculation

/-! ## Where atoms come from -/

/-- The expression with each atom replaced by what `f` gives for it, all at once. -/
def Expr.replaceAtoms (f : Symbol → Expr) : Expr → Expr
  | .atom symbol => f symbol
  | .unary operator operand => .unary operator (operand.replaceAtoms f)
  | .binary operator lhs rhs => .binary operator (lhs.replaceAtoms f) (rhs.replaceAtoms f)

/-- The relation with each atom of its sides replaced.  How the sides compare stays as it is. -/
def Relation.replaceAtoms (f : Symbol → Expr) (relation : Relation) : Relation :=
  ⟨relation.lhs.replaceAtoms f, relation.comparator, relation.rhs.replaceAtoms f⟩

/-- The subexpressions of both sides with their places. -/
def Relation.occurrences (relation : Relation) : List Occurrence :=
  relation.lhs.postOrderFrom [.left] ++ relation.rhs.postOrderFrom [.right]

/-- What stands at the place descends from the atom `source` of the relation, which stands at
`origin`, at that place or above it. -/
def Relation.Descends (relation : Relation) (place origin : Place) (source : Symbol) : Prop :=
  ⟨origin, .atom source⟩ ∈ relation.occurrences ∧ origin <:+ place

namespace Expr

variable {f : Symbol → Expr} {expr part : Expr} {base place origin origin' : Place}
  {symbol source source' : Symbol}

/-- The subexpressions of an expression stand below it. -/
theorem suffix_of_mem_postOrderFrom (mem : ⟨place, part⟩ ∈ expr.postOrderFrom base) :
    base <:+ place := by
  induction expr generalizing base with
  | atom =>
      cases List.mem_singleton.1 mem
      exact List.suffix_rfl
  | unary operator operand ih =>
      rcases List.mem_append.1 mem with inside | itself
      · exact (List.suffix_cons _ _).trans (ih inside)
      · cases List.mem_singleton.1 itself
        exact List.suffix_rfl
  | binary operator lhs rhs ihl ihr =>
      rcases List.mem_append.1 mem with inside | itself
      · rcases List.mem_append.1 inside with left | right
        · exact (List.suffix_cons _ _).trans (ihl left)
        · exact (List.suffix_cons _ _).trans (ihr right)
      · cases List.mem_singleton.1 itself
        exact List.suffix_rfl

/-- An atom below a unary operator stands in the operand. -/
theorem atom_mem_unary {operator : Symbol} {operand : Expr} :
    ⟨place, .atom symbol⟩ ∈ (Expr.unary operator operand).postOrderFrom base ↔
      ⟨place, .atom symbol⟩ ∈ operand.postOrderFrom (.left :: base) := by
  simp [postOrderFrom]

/-- An atom below a binary operator stands in one of the operands. -/
theorem atom_mem_binary {operator : Symbol} {lhs rhs : Expr} :
    ⟨place, .atom symbol⟩ ∈ (Expr.binary operator lhs rhs).postOrderFrom base ↔
      ⟨place, .atom symbol⟩ ∈ lhs.postOrderFrom (.left :: base) ∨
        ⟨place, .atom symbol⟩ ∈ rhs.postOrderFrom (.right :: base) := by
  simp [postOrderFrom]

/-- An atom of an expression whose atoms were replaced stands in what replaced one of them. -/
theorem exists_of_mem_replaceAtoms
    (mem : ⟨place, .atom symbol⟩ ∈ (expr.replaceAtoms f).postOrderFrom base) :
    ∃ origin source, ⟨origin, .atom source⟩ ∈ expr.postOrderFrom base ∧
      ⟨place, .atom symbol⟩ ∈ (f source).postOrderFrom origin := by
  induction expr generalizing base with
  | atom source => exact ⟨base, source, List.mem_singleton_self _, mem⟩
  | unary operator operand ih =>
      obtain ⟨origin, source, stands, within⟩ := ih (atom_mem_unary.1 mem)
      exact ⟨origin, source, atom_mem_unary.2 stands, within⟩
  | binary operator lhs rhs ihl ihr =>
      rcases atom_mem_binary.1 mem with left | right
      · obtain ⟨origin, source, stands, within⟩ := ihl left
        exact ⟨origin, source, atom_mem_binary.2 (.inl stands), within⟩
      · obtain ⟨origin, source, stands, within⟩ := ihr right
        exact ⟨origin, source, atom_mem_binary.2 (.inr stands), within⟩

/-- What stands on different sides of a place stands above no common one. -/
theorem not_above_both {lhs rhs part' : Expr}
    (left : ⟨origin, part⟩ ∈ lhs.postOrderFrom (.left :: base))
    (right : ⟨origin', part'⟩ ∈ rhs.postOrderFrom (.right :: base)) (above : origin <:+ place) :
    ¬ origin' <:+ place := by
  intro above'
  have first := (suffix_of_mem_postOrderFrom left).trans above
  have second := (suffix_of_mem_postOrderFrom right).trans above'
  have same := (List.suffix_of_suffix_length_le first second (Nat.le_refl _)).eq_of_length rfl
  cases same

/-- No two atoms of an expression stand above one place. -/
theorem eq_of_above (mem : ⟨origin, .atom source⟩ ∈ expr.postOrderFrom base)
    (mem' : ⟨origin', .atom source'⟩ ∈ expr.postOrderFrom base) (above : origin <:+ place)
    (above' : origin' <:+ place) : origin = origin' ∧ source = source' := by
  induction expr generalizing base with
  | atom symbol =>
      cases List.mem_singleton.1 mem
      cases List.mem_singleton.1 mem'
      exact ⟨rfl, rfl⟩
  | unary operator operand ih => exact ih (atom_mem_unary.1 mem) (atom_mem_unary.1 mem')
  | binary operator lhs rhs ihl ihr =>
      rcases atom_mem_binary.1 mem with left | right
      · rcases atom_mem_binary.1 mem' with left' | right'
        · exact ihl left left'
        · exact (not_above_both left right' above above').elim
      · rcases atom_mem_binary.1 mem' with left' | right'
        · exact (not_above_both left' right above' above).elim
        · exact ihr right right'

/-- Substituting replaces every atom by its value. -/
theorem substitute_eq_replaceAtoms (bindings : Bindings) (expr : Expr) :
    expr.substitute bindings =
      expr.replaceAtoms fun symbol => (Expr.atom symbol).substitute bindings := by
  induction expr with
  | atom => rfl
  | unary operator operand ih => rw [substitute, replaceAtoms, ih]
  | binary operator lhs rhs ihl ihr => rw [substitute, replaceAtoms, ihl, ihr]

theorem mem_atoms_of_mem_postOrderFrom (mem : ⟨place, .atom symbol⟩ ∈ expr.postOrderFrom base) :
    symbol ∈ expr.atoms := by
  induction expr generalizing base with
  | atom =>
      cases List.mem_singleton.1 mem
      exact List.mem_singleton_self _
  | unary operator operand ih => exact ih (atom_mem_unary.1 mem)
  | binary operator lhs rhs ihl ihr =>
      rcases atom_mem_binary.1 mem with left | right
      · exact List.mem_append_left _ (ihl left)
      · exact List.mem_append_right _ (ihr right)

end Expr

namespace Relation

variable {f : Symbol → Expr} {relation : Relation} {place origin origin' : Place}
  {symbol source source' : Symbol}

/-- An atom of a relation whose atoms were replaced descends from one of them. -/
theorem exists_descends (mem : ⟨place, .atom symbol⟩ ∈ (relation.replaceAtoms f).occurrences) :
    ∃ origin source, relation.Descends place origin source ∧
      ⟨place, .atom symbol⟩ ∈ (f source).postOrderFrom origin := by
  rcases List.mem_append.1 mem with left | right
  · obtain ⟨origin, source, stands, within⟩ := Expr.exists_of_mem_replaceAtoms left
    exact ⟨origin, source, ⟨List.mem_append_left _ stands,
      Expr.suffix_of_mem_postOrderFrom within⟩, within⟩
  · obtain ⟨origin, source, stands, within⟩ := Expr.exists_of_mem_replaceAtoms right
    exact ⟨origin, source, ⟨List.mem_append_right _ stands,
      Expr.suffix_of_mem_postOrderFrom within⟩, within⟩

/-- It descends from no other one. -/
theorem Descends.eq (descends : relation.Descends place origin source)
    (descends' : relation.Descends place origin' source') :
    origin = origin' ∧ source = source' := by
  obtain ⟨mem, above⟩ := descends
  obtain ⟨mem', above'⟩ := descends'
  rcases List.mem_append.1 mem with left | right
  · rcases List.mem_append.1 mem' with left' | right'
    · exact Expr.eq_of_above left left' above above'
    · exact (Expr.not_above_both left right' above above').elim
  · rcases List.mem_append.1 mem' with left' | right'
    · exact (Expr.not_above_both left' right above' above).elim
    · exact Expr.eq_of_above right right' above above'

theorem Descends.mem_atoms (descends : relation.Descends place origin source) :
    source ∈ relation.atoms := by
  rcases List.mem_append.1 descends.1 with left | right
  · exact List.mem_append_left _ (Expr.mem_atoms_of_mem_postOrderFrom left)
  · exact List.mem_append_right _ (Expr.mem_atoms_of_mem_postOrderFrom right)

end Relation

/-! ## What is left of a rule -/

namespace Rule

/-- The fact refutes the disjunct at `index` with the values in the table. -/
def Refuted (rule : Rule) (fact : Relation) (index : Nat) (bindings : Bindings) : Prop :=
  ∃ disjunct answer, rule.disjuncts[index]? = some disjunct ∧
    disjunct.unify fact true (.unbound rule.quantified) = (some answer, bindings)

/-- The symbol is quantified in the rule and has no value in the table. -/
def LeavesOpen (rule : Rule) (bindings : Bindings) (symbol : Symbol) : Prop :=
  symbol ∈ rule.quantified ∧ bindings.get? symbol = none

/-- What an atom of the rule becomes: its value, or its new name if it stays quantified. -/
def replacement (rule : Rule) (bindings : Bindings) (rename : Symbol → Symbol) (symbol : Symbol) :
    Expr :=
  (bindings.get? symbol).getD (.atom (if symbol ∈ rule.quantified then rename symbol else symbol))

/-- What is left of a rule for the values in the table, if `rename` gives the symbols that stay
quantified their new names. -/
structure LeavesBehind (rule : Rule) (index : Nat) (bindings : Bindings)
    (rename : Symbol → Symbol) (left : Rule) : Prop where
  name : left.name = rule.name
  disjuncts : left.disjuncts = (rule.disjuncts.eraseIdx index).map
    (·.replaceAtoms (rule.replacement bindings rename))
  quantified : ∀ new, new ∈ left.quantified ↔ ∃ old, rule.LeavesOpen bindings old ∧ rename old = new
  /-- A symbol keeps its name unless a value mentions it. -/
  unchanged : ∀ symbol, rule.LeavesOpen bindings symbol →
    symbol.name ∉ bindings.namesInValues → rename symbol = symbol
  /-- Symbols that the rule mentions are still told apart. -/
  distinct : ∀ symbol other, rule.LeavesOpen bindings symbol → rule.LeavesOpen bindings other →
    (∃ disjunct ∈ rule.disjuncts, symbol ∈ disjunct.atoms) →
    (∃ disjunct ∈ rule.disjuncts, other ∈ disjunct.atoms) → rename symbol = rename other →
    symbol = other
  /-- Every atom descends from one of the rule, and is quantified if that one stayed open. -/
  atoms : ∀ (number : Nat) (before after : Relation),
    (rule.disjuncts.eraseIdx index)[number]? = some before →
    left.disjuncts[number]? = some after → ∀ place symbol,
    ⟨place, .atom symbol⟩ ∈ after.occurrences →
      ∃ origin source, before.Descends place origin source ∧
        (∀ origin' source', before.Descends place origin' source' →
          origin' = origin ∧ source' = source) ∧
        (symbol ∈ left.quantified ↔ rule.LeavesOpen bindings source)

section LeftApart

variable {rule : Rule} {bindings after : Bindings} {quantified : List Symbol} {index : Nat}

/-- The name under which the symbol is found in the table. -/
def renamed (after : Bindings) (symbol : Symbol) : Symbol :=
  ((Expr.atom symbol).substitute after).symbol

theorem LeftApart.substitute_of_leavesOpen (left : rule.LeftApart bindings quantified after)
    {symbol : Symbol} (stays : rule.LeavesOpen bindings symbol) :
    renamed after symbol ∈ quantified ∧
      (Expr.atom symbol).substitute after = .atom (renamed after symbol) := by
  obtain ⟨new, mem, substituted⟩ := left.image stays.1 stays.2
  rw [renamed, substituted]
  exact ⟨mem, rfl⟩

theorem LeftApart.substitute_eq_replacement (left : rule.LeftApart bindings quantified after)
    (same : bindings.quantified = rule.quantified) (symbol : Symbol) :
    (Expr.atom symbol).substitute after = rule.replacement bindings (renamed after) symbol := by
  cases value : bindings.get? symbol with
  | some found =>
      rw [Expr.substitute, left.kept value, replacement, value]
      rfl
  | none =>
      rw [replacement, value]
      by_cases listed : symbol ∈ rule.quantified
      · rw [if_pos listed]
        exact (left.substitute_of_leavesOpen ⟨listed, value⟩).2
      · rw [if_neg listed]
        exact left.substitute_eq same listed

theorem LeftApart.replaceAtoms_eq (left : rule.LeftApart bindings quantified after)
    (same : bindings.quantified = rule.quantified) (relation : Relation) :
    relation.substitute after =
      relation.replaceAtoms (rule.replacement bindings (renamed after)) := by
  have atoms := funext (left.substitute_eq_replacement same)
  rw [Relation.substitute, Relation.replaceAtoms, Expr.substitute_eq_replaceAtoms,
    Expr.substitute_eq_replaceAtoms, atoms]

/-- An atom in what replaces one of the rule is quantified exactly if that one stays open. -/
theorem LeftApart.mem_quantified_iff (left : rule.LeftApart bindings quantified after)
    {disjunct : Relation} (mem : disjunct ∈ rule.disjuncts) {source symbol : Symbol}
    (occurs : source ∈ disjunct.atoms) {place origin : Place}
    (within : ⟨place, .atom symbol⟩ ∈
      (rule.replacement bindings (renamed after) source).postOrderFrom origin) :
    symbol ∈ quantified ↔ rule.LeavesOpen bindings source := by
  have inside := Expr.mem_atoms_of_mem_postOrderFrom within
  unfold replacement at inside
  cases value : bindings.get? source with
  | some found =>
      rw [value] at inside
      constructor
      · exact fun listed => (left.not_mem_value value listed inside).elim
      · rintro ⟨-, free⟩
        rw [value] at free
        cases free
  | none =>
      rw [value] at inside
      by_cases listed : source ∈ rule.quantified
      · rw [if_pos listed] at inside
        obtain rfl := List.mem_singleton.1 inside
        exact iff_of_true (left.substitute_of_leavesOpen ⟨listed, value⟩).1 ⟨listed, value⟩
      · rw [if_neg listed] at inside
        obtain rfl := List.mem_singleton.1 inside
        exact iff_of_false (fun new => listed (left.mem_quantified mem occurs new))
          fun stays => listed stays.1

theorem LeftApart.leavesBehind (left : rule.LeftApart bindings quantified after)
    (same : bindings.quantified = rule.quantified) (index : Nat) :
    rule.LeavesBehind index bindings (renamed after)
      ⟨rule.name, quantified, (rule.disjuncts.eraseIdx index).map (·.substitute after)⟩ where
  name := rfl
  disjuncts := List.map_congr_left fun relation _ => left.replaceAtoms_eq same relation
  quantified new := by
    constructor
    · intro mem
      obtain ⟨old, listed, free, substituted⟩ := left.preimage mem
      exact ⟨old, ⟨listed, free⟩, by rw [renamed, substituted]; rfl⟩
    · rintro ⟨old, stays, rfl⟩
      exact (left.substitute_of_leavesOpen stays).1
  unchanged symbol stays apart := by
    rw [renamed, Expr.substitute, (left.untouched apart).trans stays.2]
    rfl
  distinct symbol other stays stays' occurs occurs' same' := by
    have named : ∀ {symbol}, (∃ disjunct ∈ rule.disjuncts, symbol ∈ disjunct.atoms) →
        symbol.name ∈ (rule.disjuncts.flatMap Relation.symbols).map Symbol.name ++
          bindings.namesInValues := by
      rintro symbol ⟨disjunct, mem, occurs⟩
      have used := Relation.mem_symbols_of_mem_atoms occurs
      exact List.mem_append_left _
        (List.mem_map_of_mem (List.mem_flatMap.2 ⟨disjunct, mem, used⟩))
    refine left.distinct stays.1 stays'.1 stays.2 stays'.2 (named occurs) (named occurs') ?_
    rw [(left.substitute_of_leavesOpen stays).2, (left.substitute_of_leavesOpen stays').2, same']
  atoms number before result standsBefore standsAfter place symbol mem := by
    have mem' := List.mem_of_mem_eraseIdx (List.mem_of_getElem? standsBefore)
    rw [List.getElem?_map, standsBefore] at standsAfter
    obtain rfl := Option.some.inj standsAfter
    change ⟨place, .atom symbol⟩ ∈ (before.substitute after).occurrences at mem
    rw [left.replaceAtoms_eq same] at mem
    obtain ⟨origin, source, descends, within⟩ := Relation.exists_descends mem
    exact ⟨origin, source, descends, fun _ _ other => other.eq descends,
      left.mem_quantified_iff mem' descends.mem_atoms within⟩

end LeftApart

/-- What is left of a rule is left of it for the values with which the fact refutes one of its
disjuncts, if there are several. -/
theorem mem_resolvents_iff {rule left : Rule} {fact : Relation} :
    left ∈ rule.resolvents fact ↔ 2 ≤ rule.disjuncts.length ∧
      ∃ index bindings, rule.Refuted fact index bindings ∧
        left = rule.discharge index bindings := by
  constructor
  · intro mem
    obtain ⟨index, disjunct, stands, given⟩ := exists_of_mem_resolvents mem
    obtain ⟨answer, bindings, matched, rfl⟩ := resolvent?_eq_some_iff.1 given
    have several : 2 ≤ rule.disjuncts.length := by
      unfold resolvents at mem
      split at mem
      · cases mem
      · omega
    exact ⟨several, index, bindings, ⟨disjunct, answer, stands, matched⟩, rfl⟩
  · rintro ⟨several, index, bindings, ⟨disjunct, answer, stands, matched⟩, rfl⟩
    rw [resolvents, if_neg (Nat.not_lt.2 several), List.mem_filterMap]
    refine ⟨(disjunct, index), List.mem_zipIdx_iff_getElem?.2 stands, ?_⟩
    exact resolvent?_eq_some_iff.2 ⟨answer, bindings, matched, rfl⟩

/-- What is left of a rule is left of it for the values with which the fact refutes one of its
disjuncts, if there are several.  Then an atom is quantified exactly if it descends from an atom of
the rule that was quantified and has no value; apart from the new names of such atoms, the values
are all that is put into the other disjuncts. -/
theorem resolvents_capture_nothing (rule : Rule) (fact : Relation) :
    (∀ left, left ∈ rule.resolvents fact ↔ 2 ≤ rule.disjuncts.length ∧
        ∃ index bindings, rule.Refuted fact index bindings ∧
          left = rule.discharge index bindings) ∧
      ∀ index bindings, rule.Refuted fact index bindings →
        ∃ rename, rule.LeavesBehind index bindings rename (rule.discharge index bindings) := by
  refine ⟨fun left => mem_resolvents_iff, ?_⟩
  rintro index bindings ⟨disjunct, answer, stands, matched⟩
  obtain ⟨-, -, same, -⟩ := Relation.of_unify matched
  obtain ⟨quantified, after, left, discharged⟩ := exists_of_discharge rule index same
  exact ⟨renamed after, discharged ▸ left.leavesBehind same index⟩

/-- The fact `c = d` leaves `c ⋅ C = d ⋅ D` for all `C` and `D` of the rule that `x ⋅ c = y ⋅ d` for
all `c` and `d` if `x = y`. -/
example :
    (Rule.implication "cancellation"
      [{ name := "x" }, { name := "y" }, { name := "c" }, { name := "d" }]
      ⟨.named "x" * .named "c", .equal, .named "y" * .named "d"⟩
      [⟨.named "x", .equal, .named "y"⟩]).resolvents ⟨.named "c", .equal, .named "d"⟩ =
    [⟨"cancellation", [{ name := "C" }, { name := "D" }],
      [⟨.named "c" * .named "C", .equal, .named "d" * .named "D"⟩]⟩] := by
  cbv

end Rule

end Calculation
