import Mathlib.Data.List.Nodup
import Calculation.Proofs.Traversal
import Calculation.Proofs.Way

/-!
The walk through an expression visits every subexpression once.

A walk is a loop that looks at the occurrence on top of its stack.  In one turn (`Walk.turn?`) the
occurrence is visited and taken off, if it has no operands or if its last operand was visited just
before; otherwise its operands are put on top of it.  No more occurrences are put on the stack than
are visited (`Walk.turnsLeft_lt`), so the loop ends, whatever is on its stack, and visits what the
walk lists (`Walk.exists_endsAfter`).

Occurrences are told apart by their places.  The recursion on the expression lists all places with
what stands there (`Expr.mem_postOrderFrom_iff`) and none of them twice, also where one expression
stands at several places (`Expr.nodup_places_postOrderFrom`).

* `Expr.walkedThrough`: the walk makes the visits of the recursion, so each place is visited once,
  and all symbols are found.
-/

namespace Calculation

namespace Walk

/-! ## The turns of the loop -/

/-- One turn of the loop: what is visited in it, if anything, and the walk after it.  There is none
once the stack is empty. -/
def turn? (walk : Walk) : Option (Option Occurrence × Walk) :=
  match walk.pending with
  | [] => none
  | top :: below =>
    if top.isReady walk.lastVisited then some (some top, ⟨below, some top.place⟩)
    else some (none, ⟨top.operands ++ top :: below, walk.lastVisited⟩)

/-- The loop comes to its end after so many turns, having visited the occurrences in this order. -/
inductive EndsAfter : Walk → (turns : Nat) → List Occurrence → Prop
  | empty {walk : Walk} (ends : walk.turn? = none) : EndsAfter walk 0 []
  | turn {walk after : Walk} {visited : Option Occurrence} {turns : Nat} {rest : List Occurrence}
    (step : walk.turn? = some (visited, after)) (later : EndsAfter after turns rest) :
    EndsAfter walk (turns + 1) (visited.toList ++ rest)

variable {walk after : Walk} {visited : Option Occurrence}

/-- All that a turn can do. -/
theorem exists_of_turn? (step : walk.turn? = some (visited, after)) :
    ∃ top below, walk.pending = top :: below ∧
      (visited = some top ∧ after = ⟨below, some top.place⟩ ∨
        top.isReady walk.lastVisited = false ∧ visited = none ∧
          after = ⟨top.operands ++ top :: below, walk.lastVisited⟩) := by
  unfold turn? at step
  split at step
  · cases step
  · rename_i top below pending
    refine ⟨top, below, pending, ?_⟩
    split at step
    · cases step
      exact .inl ⟨rfl, rfl⟩
    · rename_i waiting
      cases step
      exact .inr ⟨eq_false_of_ne_true waiting, rfl, rfl⟩

/-- The next visit is what turn after turn of the loop comes to. -/
theorem next?_eq_turn? (walk : Walk) :
    walk.next? = walk.turn?.bind fun
      | (some visited, after) => some (visited, after)
      | (none, after) => after.next? := by
  rcases walk with ⟨_ | ⟨⟨place, expr⟩, below⟩, lastVisited⟩
  · rfl
  · cases expr with
    | atom symbol => rfl
    | unary operator operand =>
        by_cases finished : lastVisited = some (.left :: place) <;>
          simp [next?, turn?, descend, Occurrence.isReady, Occurrence.lastOperand?,
            Occurrence.operands, finished]
    | binary operator lhs rhs =>
        by_cases finished : lastVisited = some (.right :: place) <;>
          simp [next?, turn?, descend, Occurrence.isReady, Occurrence.lastOperand?,
            Occurrence.operands, finished]

/-- A walk is the visit that it makes next and the walk from there. -/
theorem toList_eq_next? (walk : Walk) :
    walk.toList = (walk.next?.map fun (visited, after) => visited :: after.toList).getD [] := by
  rw [toList]
  split
  · rename_i ends
    rw [ends]
    rfl
  · rename_i visited after step
    rw [step]
    rfl

/-- What a turn visits and what the walk visits after it are what the walk visits. -/
theorem toList_of_turn? (step : walk.turn? = some (visited, after)) :
    walk.toList = visited.toList ++ after.toList := by
  have next := next?_eq_turn? walk
  rw [step, Option.bind_some] at next
  rw [toList_eq_next?, next]
  cases visited with
  | none => exact (toList_eq_next? after).symm
  | some visited => rfl

theorem toList_of_turn?_eq_none (ends : walk.turn? = none) : walk.toList = [] := by
  rw [toList_eq_next?, next?_eq_turn?, ends]
  rfl

/-! ## Every loop ends -/

/-- A stack has no more occurrences than visits are owed to it. -/
theorem length_le_owedTo (above : Option Place) (stack : List Occurrence) :
    stack.length ≤ owedTo above stack := by
  induction stack generalizing above with
  | nil => exact Nat.le_refl 0
  | cons occurrence below ih =>
      have pos := due_pos above occurrence
      have rest := ih (some occurrence.place)
      rw [List.length_cons, owedTo]
      omega

theorem operands_ne_nil {occurrence : Occurrence} {lastVisited : Option Place}
    (waiting : occurrence.isReady lastVisited = false) : occurrence.operands ≠ [] := by
  rcases occurrence with ⟨place, _ | _ | _⟩
  · cases waiting
  · exact List.cons_ne_nil _ _
  · exact List.cons_ne_nil _ _

/-- At most so many turns of the loop are still to come: two for each visit, one of them to put the
occurrence on the stack, which is done for those that are there. -/
def turnsLeft (walk : Walk) : Nat := 2 * walk.owed - walk.pending.length

/-- Every turn leaves fewer turns to come, as it visits an occurrence or puts one on the stack. -/
theorem turnsLeft_lt (step : walk.turn? = some (visited, after)) :
    after.turnsLeft < walk.turnsLeft := by
  obtain ⟨top, below, pending, done⟩ := exists_of_turn? step
  have bound := length_le_owedTo walk.lastVisited (top :: below)
  unfold turnsLeft owed
  rw [pending]
  rcases done with ⟨rfl, rfl⟩ | ⟨waiting, rfl, rfl⟩
  · have pos := due_pos walk.lastVisited top
    have rest := length_le_owedTo (some top.place) below
    simp only [owedTo, List.length_cons] at bound ⊢
    omega
  · have moved := owedTo_operands_le top waiting below
    have more := List.length_pos_iff.2 (operands_ne_nil waiting)
    simp only [List.length_append, List.length_cons] at bound ⊢
    omega

/-- In whatever state its stack is, the loop ends, and visits what the walk lists. -/
theorem exists_endsAfter (walk : Walk) :
    ∃ turns ≤ walk.turnsLeft, walk.EndsAfter turns walk.toList := by
  induction left : walk.turnsLeft using Nat.strongRecOn generalizing walk with
  | ind left ih =>
      cases step : walk.turn? with
      | none =>
          rw [toList_of_turn?_eq_none step]
          exact ⟨0, Nat.zero_le _, .empty step⟩
      | some turn =>
          have fewer := turnsLeft_lt step
          obtain ⟨turns, bound, ends⟩ := ih turn.2.turnsLeft (by omega) turn.2 rfl
          rw [toList_of_turn? step]
          exact ⟨turns + 1, by omega, .turn step ends⟩

end Walk

namespace Expr

/-! ## The places of an expression -/

/-- The recursion lists what the ways from the expression lead to, each at its place. -/
theorem mem_postOrderFrom_iff {expr : Expr} {place : Place} {occurrence : Occurrence} :
    occurrence ∈ expr.postOrderFrom place ↔
      ∃ way, expr.part? way = some occurrence.expr ∧ occurrence.place = way.reverse ++ place := by
  rcases occurrence with ⟨there, part⟩
  -- with an accumulator, a side moves from the way to the place by definition
  simp only [← List.reverseAux_eq]
  induction expr generalizing place with
  | atom symbol =>
      rw [postOrderFrom, List.mem_singleton]
      simp only [part?_atom_eq_some_iff, Occurrence.mk.injEq]
      constructor
      · intro listed
        exact ⟨[], ⟨rfl, listed.2⟩, listed.1⟩
      · intro found
        obtain ⟨way, ⟨rfl, whole⟩, stands⟩ := found
        exact ⟨stands, whole⟩
  | unary operator operand ih =>
      rw [postOrderFrom, List.mem_append, List.mem_singleton, ih]
      simp only [part?_unary_eq_some_iff, Occurrence.mk.injEq]
      constructor
      · intro listed
        rcases listed with ⟨later, leads, stands⟩ | ⟨stands, whole⟩
        · exact ⟨.left :: later, .inr ⟨later, rfl, leads⟩, stands⟩
        · exact ⟨[], .inl ⟨rfl, whole⟩, stands⟩
      · intro found
        obtain ⟨way, leads, stands⟩ := found
        rcases leads with ⟨rfl, whole⟩ | ⟨later, rfl, leads⟩
        · exact .inr ⟨stands, whole⟩
        · exact .inl ⟨later, leads, stands⟩
  | binary operator lhs rhs ihl ihr =>
      rw [postOrderFrom, List.mem_append, List.mem_append, List.mem_singleton, ihl, ihr]
      simp only [part?_binary_eq_some_iff, Occurrence.mk.injEq]
      constructor
      · intro listed
        rcases listed with (⟨later, leads, stands⟩ | ⟨later, leads, stands⟩) | ⟨stands, whole⟩
        · exact ⟨.left :: later, .inr (.inl ⟨later, rfl, leads⟩), stands⟩
        · exact ⟨.right :: later, .inr (.inr ⟨later, rfl, leads⟩), stands⟩
        · exact ⟨[], .inl ⟨rfl, whole⟩, stands⟩
      · intro found
        obtain ⟨way, leads, stands⟩ := found
        rcases leads with ⟨rfl, whole⟩ | ⟨later, rfl, leads⟩ | ⟨later, rfl, leads⟩
        · exact .inr ⟨stands, whole⟩
        · exact .inl (.inl ⟨later, leads, stands⟩)
        · exact .inl (.inr ⟨later, leads, stands⟩)

/-- What is listed for an expression stands at its place or below. -/
theorem suffix_of_mem_places {expr : Expr} {place there : Place}
    (mem : there ∈ (expr.postOrderFrom place).map Occurrence.place) : place <:+ there := by
  obtain ⟨occurrence, listed, rfl⟩ := List.mem_map.1 mem
  obtain ⟨way, -, stands⟩ := mem_postOrderFrom_iff.1 listed
  exact ⟨way.reverse, stands.symm⟩

/-- No place is below both operands of an operation. -/
theorem side_eq_of_suffix {side side' : Side} {place there : Place}
    (suffix : side :: place <:+ there) (suffix' : side' :: place <:+ there) : side = side' := by
  have same := (List.suffix_of_suffix_length_le suffix suffix' (Nat.le_refl _)).eq_of_length rfl
  exact (List.cons.inj same).1

/-- What is listed for an operand does not stand where its operation stands. -/
theorem ne_of_mem_places {expr : Expr} {side : Side} {place there : Place}
    (mem : there ∈ (expr.postOrderFrom (side :: place)).map Occurrence.place) : there ≠ place := by
  rintro rfl
  have shorter := (suffix_of_mem_places mem).length_le
  rw [List.length_cons] at shorter
  omega

/-- No place is listed twice, whatever expressions are equal. -/
theorem nodup_places_postOrderFrom (expr : Expr) (place : Place) :
    ((expr.postOrderFrom place).map Occurrence.place).Nodup := by
  induction expr generalizing place with
  | atom symbol => exact List.nodup_singleton _
  | unary operator operand ih =>
      rw [postOrderFrom, List.map_append, List.nodup_append]
      refine ⟨ih _, List.nodup_singleton _, fun there mem other last => ?_⟩
      cases List.mem_singleton.1 last
      exact ne_of_mem_places mem
  | binary operator lhs rhs ihl ihr =>
      rw [postOrderFrom, List.map_append, List.map_append, List.nodup_append, List.nodup_append]
      refine ⟨⟨ihl _, ihr _, fun there mem other mem' => ?_⟩, List.nodup_singleton _,
        fun there mem other last => ?_⟩
      · rintro rfl
        cases side_eq_of_suffix (suffix_of_mem_places mem) (suffix_of_mem_places mem')
      · cases List.mem_singleton.1 last
        rcases List.mem_append.1 mem with left | right
        · exact ne_of_mem_places left
        · exact ne_of_mem_places right

theorem length_postOrderFrom (expr : Expr) (place : Place) :
    (expr.postOrderFrom place).length = expr.size := by
  induction expr generalizing place with
  | atom symbol => rfl
  | unary operator operand ih => rw [postOrderFrom, List.length_append, ih]; rfl
  | binary operator lhs rhs ihl ihr =>
      rw [postOrderFrom, List.length_append, List.length_append, ihl, ihr]
      rfl

/-! ## The walk through an expression -/

/-- The symbol is that of a subexpression, be it an atom or an operation. -/
def HasSymbol (expr : Expr) (symbol : Symbol) : Prop :=
  ∃ way part, expr.part? way = some part ∧ part.symbol = symbol

/-- What the walk through an expression comes to. -/
structure WalkedThrough (expr : Expr) : Prop where
  /-- The loop ends, with less than two turns for each subexpression. -/
  ends : ∃ turns < 2 * expr.size, (Walk.start expr).EndsAfter turns expr.postOrder
  /-- The visits are made in the order of the recursion. -/
  order : expr.postOrder = expr.postOrderFrom []
  /-- What is visited are the places that a way leads to, with what stands there. -/
  visits : ∀ way part, ⟨way.reverse, part⟩ ∈ expr.postOrder ↔ expr.part? way = some part
  /-- No place is visited twice. -/
  once : (expr.postOrder.map Occurrence.place).Nodup
  count : expr.nodeCount = expr.size
  symbols : expr.symbols = (expr.postOrderFrom []).map fun occurrence => occurrence.expr.symbol
  mem_symbols : ∀ symbol, symbol ∈ expr.symbols ↔ expr.HasSymbol symbol
  mentions : ∀ symbol, expr.mentions symbol = true ↔ expr.HasSymbol symbol

theorem mem_postOrder_iff {expr part : Expr} {way : Way} :
    ⟨way.reverse, part⟩ ∈ expr.postOrder ↔ expr.part? way = some part := by
  rw [postOrder_eq_postOrderFrom, mem_postOrderFrom_iff]
  constructor
  · intro found
    obtain ⟨other, leads, stands⟩ := found
    rw [List.append_nil] at stands
    rwa [List.reverse_injective stands]
  · exact fun leads => ⟨way, leads, (List.append_nil _).symm⟩

theorem mem_symbols_iff {expr : Expr} {symbol : Symbol} :
    symbol ∈ expr.symbols ↔ expr.HasSymbol symbol := by
  rw [symbols, List.mem_map]
  constructor
  · intro named
    obtain ⟨⟨place, part⟩, visited, named⟩ := named
    rw [← List.reverse_reverse place] at visited
    exact ⟨place.reverse, part, mem_postOrder_iff.1 visited, named⟩
  · intro has
    obtain ⟨way, part, leads, named⟩ := has
    exact ⟨⟨way.reverse, part⟩, mem_postOrder_iff.2 leads, named⟩

/-- The walk through an expression visits every subexpression at every place where it stands, in the
order of the recursion, and then it ends. -/
theorem walkedThrough (expr : Expr) : expr.WalkedThrough := by
  have order := expr.postOrder_eq_postOrderFrom
  obtain ⟨turns, bound, ends⟩ := (Walk.start expr).exists_endsAfter
  have few : turns < 2 * expr.size := by
    have due : Walk.due none ⟨[], expr⟩ ≤ expr.size := Walk.due_le_size ..
    have positive := expr.size_pos
    simp only [Walk.turnsLeft, Walk.owed, Walk.owedTo, Walk.start, List.length_singleton] at bound
    omega
  exact {
    ends := ⟨turns, few, ends⟩
    order := order
    visits := fun way part => mem_postOrder_iff
    once := order ▸ nodup_places_postOrderFrom expr []
    count := by rw [nodeCount, order, length_postOrderFrom]
    symbols := by rw [symbols, order]
    mem_symbols := fun symbol => mem_symbols_iff
    mentions := by
      intro symbol
      rw [mentions, List.any_eq_true, ← mem_symbols_iff]
      simp }

/-- Equal operands are visited one after the other. -/
example : (named "x" + named "x").postOrder.map Occurrence.place = [[.left], [.right], []] := by
  cbv

end Expr

end Calculation
