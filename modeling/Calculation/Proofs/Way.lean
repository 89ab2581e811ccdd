import Calculation.Proofs.Arena

/-!
Ways down through an expression.

A subexpression is known by the way that leads to it from the root, whatever it is equal to
(`Expr.part?`).  If an operation comes before its operands and the left operand before the right
one, `Expr.rank` tells how many subexpressions come before the one at the end of a way.

* `Expr.eq_of_rank_eq`, `Expr.exists_rank_eq`: every number below the size of the expression is the
  rank of one subexpression, and of no other.
-/

namespace Calculation

/-- The sides of the operands that lead from the root down to a subexpression. -/
abbrev Way := List Side

/-- The side that is not this one. -/
def Side.other : Side → Side
  | .left => .right
  | .right => .left

@[simp] theorem Side.other_other (side : Side) : side.other.other = side := by
  cases side <;> rfl

theorem Side.other_ne (side : Side) : side.other ≠ side := by
  cases side <;> exact fun same => nomatch same

theorem Side.eq_other_of_ne {side beside : Side} (different : beside ≠ side) :
    beside = side.other := by
  cases side <;> cases beside <;> first | rfl | contradiction

namespace Expr

/-- The operand on the side.  An only operand stands on the left. -/
def operandOn? : Expr → Side → Option Expr
  | .unary _ operand, .left => some operand
  | .binary _ lhs _, .left => some lhs
  | .binary _ _ rhs, .right => some rhs
  | _, _ => none

/-- The subexpression that the way leads to, if it leads anywhere. -/
def part? : Expr → Way → Option Expr
  | expr, [] => some expr
  | expr, side :: way => (expr.operandOn? side).bind (·.part? way)

/-- How far behind the operation the operand on the side comes. -/
def offset : Expr → Side → Nat
  | .binary _ lhs _, .right => 1 + lhs.size
  | _, _ => 1

/-- How many subexpressions come before the one that the way leads to. -/
def rank : Expr → Way → Nat
  | _, [] => 0
  | expr, side :: way => expr.offset side + ((expr.operandOn? side).map (·.rank way)).getD 0

variable {expr operand part other : Expr} {way way' : Way} {side side' : Side}

/-- A way can be gone in two parts. -/
theorem part?_append (expr : Expr) (way rest : Way) :
    expr.part? (way ++ rest) = (expr.part? way).bind (·.part? rest) := by
  induction way generalizing expr with
  | nil => rfl
  | cons side way ih =>
      rw [List.cons_append, part?, part?, Option.bind_assoc]
      exact congrArg _ (funext ih)

theorem part?_concat (expr : Expr) (way : Way) (side : Side) :
    expr.part? (way ++ [side]) = (expr.part? way).bind (·.operandOn? side) := by
  rw [part?_append]
  refine congrArg _ (funext fun part => ?_)
  rw [part?]
  cases part.operandOn? side <;> rfl

/-- The first operand of a way that leads somewhere. -/
theorem exists_operandOn? (leads : expr.part? (side :: way) = some part) :
    ∃ operand, expr.operandOn? side = some operand ∧ operand.part? way = some part :=
  Option.bind_eq_some_iff.1 leads

/-- No way leads on from an atom. -/
theorem part?_atom_eq_some_iff {symbol : Symbol} :
    (atom symbol).part? way = some part ↔ way = [] ∧ part = .atom symbol := by
  cases way with
  | nil => simp [part?, eq_comm]
  | cons side way => cases side <;> simp [part?, operandOn?]

theorem part?_unary_eq_some_iff {operator : Symbol} {operand : Expr} :
    (unary operator operand).part? way = some part ↔
      way = [] ∧ part = .unary operator operand ∨
        ∃ later, way = .left :: later ∧ operand.part? later = some part := by
  cases way with
  | nil => simp [part?, eq_comm]
  | cons side way => cases side <;> simp [part?, operandOn?]

theorem part?_binary_eq_some_iff {operator : Symbol} {lhs rhs : Expr} :
    (binary operator lhs rhs).part? way = some part ↔
      way = [] ∧ part = .binary operator lhs rhs ∨
        (∃ later, way = .left :: later ∧ lhs.part? later = some part) ∨
          ∃ later, way = .right :: later ∧ rhs.part? later = some part := by
  cases way with
  | nil => simp [part?, eq_comm]
  | cons side way => cases side <;> simp [part?, operandOn?]

/-- What has operands on both sides is a binary operation. -/
theorem exists_binary_of_operandOn? (stands : expr.operandOn? side = some operand)
    (stands' : expr.operandOn? side.other = some other) :
    ∃ operator lhs rhs, expr = .binary operator lhs rhs := by
  cases expr with
  | atom symbol => cases side <;> cases stands
  | unary operator argument =>
      cases side with
      | left => cases stands'
      | right => cases stands
  | binary operator lhs rhs => exact ⟨operator, lhs, rhs, rfl⟩

/-! ## The order of the subexpressions -/

theorem offset_left (expr : Expr) : expr.offset .left = 1 := by
  cases expr <;> rfl

theorem rank_cons (stands : expr.operandOn? side = some operand) (way : Way) :
    expr.rank (side :: way) = expr.offset side + operand.rank way := by
  rw [rank, stands]
  rfl

theorem rank_append (leads : expr.part? way = some part) (rest : Way) :
    expr.rank (way ++ rest) = expr.rank way + part.rank rest := by
  induction way generalizing expr with
  | nil =>
      cases leads
      rw [List.nil_append, rank, Nat.zero_add]
  | cons side way ih =>
      obtain ⟨operand, stands, later⟩ := exists_operandOn? leads
      rw [List.cons_append, rank_cons stands, rank_cons stands, ih later, Nat.add_assoc]

/-- An operand comes after its operation, and ends where the next operand or the end is. -/
theorem offset_bounds (stands : expr.operandOn? side = some operand) :
    0 < expr.offset side ∧ expr.offset side + operand.size ≤ expr.size ∧
      ∀ beside, expr.operandOn? side.other = some beside →
        expr.offset side + operand.size ≤ expr.offset side.other ∨
          expr.offset side.other + beside.size ≤ expr.offset side := by
  cases expr <;> cases side <;> cases stands <;>
    simp [offset, size, operandOn?, Side.other] <;> omega

/-- A subexpression and all below it come before the end. -/
theorem rank_add_size_le (leads : expr.part? way = some part) :
    expr.rank way + part.size ≤ expr.size := by
  induction way generalizing expr with
  | nil =>
      cases leads
      exact Nat.le_of_eq (Nat.zero_add _)
  | cons side way ih =>
      obtain ⟨operand, stands, later⟩ := exists_operandOn? leads
      have inside := (offset_bounds stands).2.1
      have before := ih later
      rw [rank_cons stands]
      omega

/-- No two subexpressions have the same rank. -/
theorem eq_of_rank_eq (leads : expr.part? way = some part) (leads' : expr.part? way' = some other)
    (same : expr.rank way = expr.rank way') : way = way' := by
  induction way generalizing expr way' with
  | nil =>
      cases way' with
      | nil => rfl
      | cons side' way' =>
          obtain ⟨operand', stands', -⟩ := exists_operandOn? leads'
          have after := (offset_bounds stands').1
          rw [rank, rank_cons stands'] at same
          omega
  | cons side way ih =>
      obtain ⟨operand, stands, later⟩ := exists_operandOn? leads
      have size := rank_add_size_le later
      have positive := part.size_pos
      have bounds := offset_bounds stands
      cases way' with
      | nil =>
          rw [rank_cons stands, rank] at same
          omega
      | cons side' way' =>
          obtain ⟨operand', stands', later'⟩ := exists_operandOn? leads'
          have size' := rank_add_size_le later'
          have positive' := other.size_pos
          rw [rank_cons stands, rank_cons stands'] at same
          by_cases sides : side' = side
          · subst sides
            cases Option.some.inj (stands.symm.trans stands')
            rw [ih later later' (by omega)]
          · -- the operands do not overlap
            cases Side.eq_other_of_ne sides
            have apart := bounds.2.2 operand' stands'
            omega

/-- Every number below the size of the expression is the rank of a subexpression. -/
theorem exists_rank_eq {index : Nat} (inside : index < expr.size) :
    ∃ way part, expr.part? way = some part ∧ expr.rank way = index := by
  induction expr generalizing index with
  | atom symbol =>
      rw [size] at inside
      exact ⟨[], _, rfl, by rw [rank]; omega⟩
  | unary operator operand ih =>
      cases index with
      | zero => exact ⟨[], _, rfl, rfl⟩
      | succ index =>
          rw [size] at inside
          obtain ⟨way, part, leads, ranked⟩ := ih (Nat.lt_of_succ_lt_succ inside)
          refine ⟨.left :: way, part, leads, ?_⟩
          rw [rank_cons rfl, ranked, offset_left, Nat.add_comm]
  | binary operator lhs rhs ihl ihr =>
      cases index with
      | zero => exact ⟨[], _, rfl, rfl⟩
      | succ index =>
          rw [size] at inside
          rcases Nat.lt_or_ge index lhs.size with left | right
          · obtain ⟨way, part, leads, ranked⟩ := ihl left
            refine ⟨.left :: way, part, leads, ?_⟩
            rw [rank_cons rfl, ranked, offset_left, Nat.add_comm]
          · have offset_lt : index - lhs.size < rhs.size := by omega
            obtain ⟨way, part, leads, ranked⟩ := ihr offset_lt
            refine ⟨.right :: way, part, leads, ?_⟩
            rw [rank_cons rfl, ranked, offset]
            omega

end Expr

end Calculation
