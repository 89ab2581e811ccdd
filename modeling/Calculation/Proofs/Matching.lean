import Calculation.Matching
import Calculation.Proofs.Traversal

/-!
What a successful match says.

A pattern is laid over an expression, so that each of its atoms faces a part of it (`Expr.facing`).
An atom that faces itself asks for nothing, and any other one demands that its symbol stand for what
it faces (`Expr.demands`).  Matching checks that the operators of both agree (`Expr.Fits`) and binds
what is demanded, one symbol after the other (`Expr.matches?_eq_true_iff`).

* `Expr.get?_eq_some_iff_of_unify`: a fresh table holds the demands, and nothing else.
* `Expr.substitute_eq_iff`: the values turn a pattern that fits into the expression exactly if every
  atom stands for what it faces.
* `Expr.substitute_eq_iff_of_unify`: so a match can be trusted exactly if no symbol of the pattern
  faces both itself and something else.
-/

namespace Calculation

/-! ## What a table says -/

namespace Bindings

/-- A list in which no key is repeated is searched for what it holds. -/
theorem find?_key_eq_some_iff {entries : List (Symbol × Expr)} {symbol : Symbol} {value : Expr}
    (nodup : (entries.map Prod.fst).Nodup) :
    (entries.find? (·.1 = symbol)).map Prod.snd = some value ↔ (symbol, value) ∈ entries := by
  induction entries with
  | nil => simp
  | cons entry rest ih =>
      obtain ⟨key, found⟩ := entry
      rw [List.map_cons, List.nodup_cons] at nodup
      by_cases same : key = symbol
      · subst same
        have absent : (key, value) ∉ rest := fun mem =>
          nodup.1 (List.mem_map.2 ⟨(key, value), mem, rfl⟩)
        simp [absent, eq_comm]
      · rw [List.find?_cons_of_neg (by simpa using same), ih nodup.2]
        simp [Ne.symm same]

/-- A symbol has the value that the table lists for it. -/
theorem get?_eq_some_iff {bindings : Bindings} {symbol : Symbol} {value : Expr} :
    bindings.get? symbol = some value ↔ (symbol, value) ∈ bindings.values :=
  find?_key_eq_some_iff bindings.nodup

/-- A bound symbol is quantified. -/
theorem mem_quantified_of_get? {bindings : Bindings} {symbol : Symbol} {value : Expr}
    (bound : bindings.get? symbol = some value) : symbol ∈ bindings.quantified :=
  bindings.mem_quantified _ (get?_eq_some_iff.1 bound)

/-- A symbol that is not quantified has no value. -/
theorem get?_eq_none_of_not_mem {bindings : Bindings} {symbol : Symbol}
    (constant : symbol ∉ bindings.quantified) : bindings.get? symbol = none := by
  cases bound : bindings.get? symbol with
  | none => rfl
  | some value => exact (constant (mem_quantified_of_get? bound)).elim

/-- Tables are the same if they list the same. -/
theorem eq_of_values {left right : Bindings} (quantified : left.quantified = right.quantified)
    (values : left.values = right.values) : left = right := by
  cases left
  cases right
  cases quantified
  cases values
  rfl

/-- Binding puts the value of a quantified symbol that had none in front. -/
theorem bind?_eq_some_iff {bindings extended : Bindings} {symbol : Symbol} {value : Expr} :
    bindings.bind? symbol value = some extended ↔
      (symbol ∈ bindings.quantified ∧ bindings.get? symbol = none) ∧
        extended.quantified = bindings.quantified ∧
          extended.values = (symbol, value) :: bindings.values := by
  unfold bind?
  split
  · rename_i able
    constructor
    · intro bound
      cases Option.some.inj bound
      exact ⟨able, rfl, rfl⟩
    · rintro ⟨-, quantified, values⟩
      exact congrArg some (eq_of_values quantified.symm values.symm)
  · rename_i unable
    constructor
    · intro bound
      cases bound
    · rintro ⟨able, -, -⟩
      exact (unable able).elim

theorem get?_of_bind? {bindings extended : Bindings} {symbol : Symbol} {value : Expr}
    (bound : bindings.bind? symbol value = some extended) (other : Symbol) :
    extended.get? other = if symbol = other then some value else bindings.get? other := by
  obtain ⟨-, -, values⟩ := bind?_eq_some_iff.1 bound
  rw [get?, values, List.find?_cons]
  by_cases same : symbol = other
  · simp [same]
  · simp [same, get?]

theorem exists_bind? {bindings : Bindings} {symbol : Symbol} (value : Expr)
    (listed : symbol ∈ bindings.quantified) (free : bindings.get? symbol = none) :
    ∃ extended, bindings.bind? symbol value = some extended := by
  rw [bind?, dif_pos ⟨listed, free⟩]
  exact ⟨_, rfl⟩

/-- Gives several symbols their values, one after the other. -/
def bindAll? : List (Symbol × Expr) → Bindings → Option Bindings
  | [], bindings => some bindings
  | (symbol, value) :: rest, bindings => (bindings.bind? symbol value).bind (bindAll? rest)

theorem bindAll?_append (front back : List (Symbol × Expr)) (bindings : Bindings) :
    bindAll? (front ++ back) bindings = (bindAll? front bindings).bind (bindAll? back) := by
  induction front generalizing bindings with
  | nil => rfl
  | cons entry rest ih =>
      rw [List.cons_append, bindAll?, bindAll?, Option.bind_assoc]
      exact congrArg _ (funext ih)

/-- Binding several symbols lists them in front, the last one first. -/
theorem values_of_bindAll? {entries : List (Symbol × Expr)} {bindings extended : Bindings}
    (bound : bindAll? entries bindings = some extended) :
    extended.quantified = bindings.quantified ∧
      extended.values = entries.reverse ++ bindings.values := by
  induction entries generalizing bindings with
  | nil =>
      cases Option.some.inj bound
      exact ⟨rfl, rfl⟩
  | cons entry rest ih =>
      obtain ⟨middle, first, others⟩ := Option.bind_eq_some_iff.1 bound
      obtain ⟨-, quantified, values⟩ := bind?_eq_some_iff.1 first
      obtain ⟨quantifiedAfter, valuesAfter⟩ := ih others
      refine ⟨quantifiedAfter.trans quantified, ?_⟩
      rw [valuesAfter, values, List.reverse_cons, List.append_assoc, List.singleton_append]

end Bindings

/-! ## A pattern laid over an expression -/

namespace Expr

/-- The atoms of the pattern, each with the part of the expression that it faces. -/
def facing : (pattern ground : Expr) → List (Symbol × Expr)
  | .atom symbol, ground => [(symbol, ground)]
  | .unary _ operand, .unary _ groundOperand => operand.facing groundOperand
  | .binary _ lhs rhs, .binary _ groundLhs groundRhs =>
    lhs.facing groundLhs ++ rhs.facing groundRhs
  | .unary _ _, _ => []
  | .binary _ _ _, _ => []

/-- What the pattern wants its symbols to stand for: the atoms that face anything but themselves. -/
def demands (pattern ground : Expr) : List (Symbol × Expr) :=
  (pattern.facing ground).filter fun entry => entry.2 ≠ .atom entry.1

/-- The operators of the pattern are those of the expression, atoms apart. -/
def Fits : (pattern ground : Expr) → Prop
  | .atom _, _ => True
  | .unary operator operand, .unary groundOperator groundOperand =>
    operator = groundOperator ∧ operand.Fits groundOperand
  | .binary operator lhs rhs, .binary groundOperator groundLhs groundRhs =>
    operator = groundOperator ∧ lhs.Fits groundLhs ∧ rhs.Fits groundRhs
  | .unary _ _, _ => False
  | .binary _ _ _, _ => False

theorem mem_demands_iff {pattern ground part : Expr} {symbol : Symbol} :
    (symbol, part) ∈ pattern.demands ground ↔
      (symbol, part) ∈ pattern.facing ground ∧ part ≠ .atom symbol := by
  simp [demands]

/-- What an atom of the pattern faces is a part of the expression, so it has nothing that is listed
for an expression along with what is listed for its operands. -/
theorem subset_of_mem_facing {f : Expr → List Symbol}
    (unary : ∀ operator operand, f operand ⊆ f (.unary operator operand))
    (lhs : ∀ operator lhs rhs, f lhs ⊆ f (.binary operator lhs rhs))
    (rhs : ∀ operator lhs rhs, f rhs ⊆ f (.binary operator lhs rhs))
    {pattern ground part : Expr} {symbol : Symbol}
    (faces : (symbol, part) ∈ pattern.facing ground) : f part ⊆ f ground := by
  induction pattern generalizing ground with
  | atom own =>
      cases List.mem_singleton.1 faces
      exact List.Subset.refl _
  | unary operator operand ih =>
      cases ground with
      | unary groundOperator groundOperand => exact List.Subset.trans (ih faces) (unary _ _)
      | _ => cases faces
  | binary operator _ _ ihl ihr =>
      cases ground with
      | binary groundOperator groundLhs groundRhs =>
          rcases List.mem_append.1 faces with left | right
          · exact List.Subset.trans (ihl left) (lhs _ _ _)
          · exact List.Subset.trans (ihr right) (rhs _ _ _)
      | _ => cases faces

/-- What an atom of the pattern faces has no atoms other than those of the expression. -/
theorem mem_atoms_of_mem_facing {pattern ground part : Expr} {symbol atom : Symbol}
    (faces : (symbol, part) ∈ pattern.facing ground) (mem : atom ∈ part.atoms) :
    atom ∈ ground.atoms :=
  subset_of_mem_facing (fun _ _ => List.Subset.refl _) (fun _ _ _ => List.subset_append_left _ _)
    (fun _ _ _ => List.subset_append_right _ _) faces mem

/-- What an atom of the pattern faces has no symbols other than those of the expression. -/
theorem mem_symbols_of_mem_facing {pattern ground part : Expr} {symbol other : Symbol}
    (faces : (symbol, part) ∈ pattern.facing ground) (mem : other ∈ part.symbols) :
    other ∈ ground.symbols := by
  refine subset_of_mem_facing (f := symbols) ?_ ?_ ?_ faces mem
  · intro operator operand
    rw [symbols_unary]
    exact List.subset_append_left _ _
  · intro operator lhs rhs
    rw [symbols_binary, List.append_assoc]
    exact List.subset_append_left _ _
  · intro operator lhs rhs
    rw [symbols_binary, List.append_assoc]
    exact List.Subset.trans (List.subset_append_left _ _) (List.subset_append_right _ _)

/-- A pattern matches if it fits and all that it demands can be bound, from left to right. -/
theorem matches?_eq_true_iff {pattern ground : Expr} {bindings extended : Bindings} :
    pattern.matches? ground bindings = (true, extended) ↔
      pattern.Fits ground ∧
        Bindings.bindAll? (pattern.demands ground) bindings = some extended := by
  induction pattern generalizing ground bindings extended with
  | atom symbol =>
      by_cases same : ground = .atom symbol
      · simp [matches?, Fits, demands, facing, same, Bindings.bindAll?]
      · have demanded : (atom symbol).demands ground = [(symbol, ground)] := by
          simp [demands, facing, same]
        rw [demanded, matches?, if_neg same]
        cases bound : bindings.bind? symbol ground <;> simp [Fits, Bindings.bindAll?, bound]
  | unary operator operand ih =>
      cases ground with
      | unary groundOperator groundOperand =>
          by_cases same : operator = groundOperator
          · subst same
            rw [matches?, if_pos rfl, ih]
            simp [Fits, demands, facing]
          · simp [matches?, Fits, same]
      | _ => simp [matches?, Fits]
  | binary operator lhs rhs ihl ihr =>
      cases ground with
      | binary groundOperator groundLhs groundRhs =>
          by_cases same : operator = groundOperator
          · subst same
            have demanded :
                (binary operator lhs rhs).demands (binary operator groundLhs groundRhs) =
                  lhs.demands groundLhs ++ rhs.demands groundRhs := List.filter_append ..
            rw [demanded, Bindings.bindAll?_append, matches?, if_pos rfl]
            cases left : lhs.matches? groundLhs bindings with
            | mk success middle =>
                cases success with
                | true =>
                    obtain ⟨fits, bound⟩ := ihl.1 left
                    simp [ihr, Fits, fits, bound]
                | false =>
                    simp only [Prod.mk.injEq, Bool.false_eq_true, false_and, false_iff, Fits,
                      true_and]
                    rintro ⟨⟨fits, -⟩, bound⟩
                    obtain ⟨after, first, -⟩ := Option.bind_eq_some_iff.1 bound
                    rw [ihl.2 ⟨fits, first⟩] at left
                    cases left
          · simp [matches?, Fits, same]
      | _ => simp [matches?, Fits]

/-- What unifying with a table of unbound symbols comes to: the pattern fits, the table holds what
the pattern demands and nothing else, and the answer is the expression. -/
theorem of_unify {pattern ground answer : Expr} {quantified : List Symbol} {bindings : Bindings}
    (matched : pattern.unify ground (.unbound quantified) = (some answer, bindings)) :
    pattern.Fits ground ∧ bindings.quantified = quantified ∧
      bindings.values = (pattern.demands ground).reverse ∧ answer = ground := by
  unfold unify at matched
  split at matched
  · rename_i extended found
    cases matched
    obtain ⟨fits, bound⟩ := matches?_eq_true_iff.1 found
    obtain ⟨same, values⟩ := Bindings.values_of_bindAll? bound
    exact ⟨fits, same, values.trans (List.append_nil _), rfl⟩
  · cases matched

/-- A symbol has a value after a match exactly if it faces the value, which is not the symbol. -/
theorem get?_eq_some_iff_of_unify {pattern ground answer : Expr} {quantified : List Symbol}
    {bindings : Bindings}
    (matched : pattern.unify ground (.unbound quantified) = (some answer, bindings))
    {symbol : Symbol} {value : Expr} :
    bindings.get? symbol = some value ↔
      (symbol, value) ∈ pattern.facing ground ∧ value ≠ .atom symbol := by
  obtain ⟨-, -, values, -⟩ := of_unify matched
  rw [Bindings.get?_eq_some_iff, values, List.mem_reverse, mem_demands_iff]

/-- An expression matches itself, and no symbol is bound. -/
theorem matches?_self (expr : Expr) (bindings : Bindings) :
    expr.matches? expr bindings = (true, bindings) := by
  induction expr generalizing bindings with
  | atom symbol => rw [matches?, if_pos rfl]
  | unary operator operand ih => rw [matches?, if_pos rfl, ih]
  | binary operator lhs rhs ihl ihr => rw [matches?, if_pos rfl, ihl]; exact ihr bindings

/-! ## Putting the values in -/

theorem substitute_unbound (quantified : List Symbol) (expr : Expr) :
    expr.substitute (.unbound quantified) = expr := by
  induction expr with
  | atom symbol => rfl
  | unary operator operand ih => rw [substitute, ih]
  | binary operator lhs rhs ihl ihr => rw [substitute, ihl, ihr]

/-- A pattern that fits becomes the expression exactly if each atom stands for what it faces. -/
theorem substitute_eq_iff {pattern ground : Expr} (bindings : Bindings)
    (fits : pattern.Fits ground) :
    pattern.substitute bindings = ground ↔
      ∀ entry ∈ pattern.facing ground, (Expr.atom entry.1).substitute bindings = entry.2 := by
  induction pattern generalizing ground with
  | atom symbol => simp [facing]
  | unary operator operand ih =>
      cases ground with
      | unary groundOperator groundOperand =>
          obtain ⟨rfl, fits⟩ := fits
          simp only [substitute, facing, unary.injEq, true_and, ih fits]
      | _ => exact fits.elim
  | binary operator lhs rhs ihl ihr =>
      cases ground with
      | binary groundOperator groundLhs groundRhs =>
          obtain ⟨rfl, left, right⟩ := fits
          simp only [substitute, facing, binary.injEq, true_and, ihl left, ihr right,
            List.forall_mem_append]
      | _ => exact fits.elim

/-- No symbol of the pattern faces both itself and something else. -/
def Steady (pattern ground : Expr) : Prop :=
  ∀ symbol part, (symbol, .atom symbol) ∈ pattern.facing ground →
    (symbol, part) ∈ pattern.facing ground → part = .atom symbol

/-- As long as no symbol faces both itself and something else, the values found turn the pattern
into the expression. -/
theorem substitute_eq_of_steady {pattern ground answer : Expr} {quantified : List Symbol}
    {bindings : Bindings}
    (matched : pattern.unify ground (.unbound quantified) = (some answer, bindings))
    (steady : pattern.Steady ground) : pattern.substitute bindings = ground := by
  rw [substitute_eq_iff bindings (of_unify matched).1]
  rintro ⟨symbol, part⟩ faces
  by_cases itself : part = .atom symbol
  · subst itself
    cases bound : bindings.get? symbol with
    | none => simp [substitute, bound]
    | some value =>
        obtain ⟨facesValue, other⟩ := (get?_eq_some_iff_of_unify matched).1 bound
        exact (other (steady _ _ faces facesValue)).elim
  · have bound := (get?_eq_some_iff_of_unify matched).2 ⟨faces, itself⟩
    simp [substitute, bound]

/-- A symbol that faces itself is left alone if no quantified symbol stands in the expression. -/
theorem steady_of_apart {pattern ground answer : Expr} {quantified : List Symbol}
    {bindings : Bindings}
    (matched : pattern.unify ground (.unbound quantified) = (some answer, bindings))
    (apart : ∀ symbol ∈ quantified, symbol ∉ ground.atoms) : pattern.Steady ground := by
  intro symbol part itself faces
  by_cases other : part = .atom symbol
  · exact other
  · have bound := (get?_eq_some_iff_of_unify matched).2 ⟨faces, other⟩
    have listed : symbol ∈ quantified := by
      rw [← (of_unify matched).2.1]
      exact Bindings.mem_quantified_of_get? bound
    have inside := mem_atoms_of_mem_facing itself (List.mem_singleton_self symbol)
    exact (apart symbol listed inside).elim

/-- A match can be trusted exactly as long as no symbol faces both itself and something else: the
values found then turn the pattern into the expression, and else they never do. -/
theorem substitute_eq_iff_of_unify {pattern ground answer : Expr} {quantified : List Symbol}
    {bindings : Bindings}
    (matched : pattern.unify ground (.unbound quantified) = (some answer, bindings)) :
    pattern.substitute bindings = ground ↔ pattern.Steady ground := by
  refine ⟨fun stands symbol part itself faces => ?_, substitute_eq_of_steady matched⟩
  rw [substitute_eq_iff bindings (of_unify matched).1] at stands
  have unchanged := stands _ itself
  rw [stands _ faces] at unchanged
  exact unchanged

/-- A symbol that faces itself is left alone, while another one takes its value. -/
theorem substitute_eq_iff_of_unify_namesake :
    let x : Symbol := { name := "x" }
    let y : Symbol := { name := "y" }
    let bindings : Bindings := ⟨[x, y], [(y, named "a")], by decide, by decide⟩
    (atom x * atom y).unify (atom x * named "a") (.unbound [x, y]) =
        (some (atom x * named "a"), bindings) ∧
      ((atom x * atom y).substitute bindings = atom x * named "a" ↔
        (atom x * atom y).Steady (atom x * named "a")) := by
  intro x y bindings
  have matched : (atom x * atom y).unify (atom x * named "a") (.unbound [x, y]) =
      (some (atom x * named "a"), bindings) := rfl
  exact ⟨matched, substitute_eq_iff_of_unify matched⟩

/-- Not every match can be trusted: `x ⋅ x` matches `a ⋅ x`, since its first `x` is bound to `a` and
its second one is left alone, but `a` in the place of `x` makes it `a ⋅ a`. -/
theorem not_forall_substitute_eq_of_unify :
    ¬ ∀ (pattern ground answer : Expr) (quantified : List Symbol) (bindings : Bindings),
        pattern.unify ground (.unbound quantified) = (some answer, bindings) →
          pattern.substitute bindings = ground := by
  intro trusted
  let x : Symbol := { name := "x" }
  let bindings : Bindings := ⟨[x], [(x, named "a")], by decide, by decide⟩
  have same : (atom x * atom x).substitute bindings = named "a" * atom x :=
    trusted _ _ _ [x] bindings rfl
  exact absurd same (by decide)

end Expr

end Calculation
