import Calculation.Expr.Traversal

/-!
The walk through an expression visits what the recursion on the expression lists.

`Expr.postOrderFrom` lists the occurrences of an expression by recursion, operands before their
operation.  A walk that has just reached an occurrence visits exactly this list and then goes on
with what is left on its stack (`Walk.toList_cons`).  All that matters of the place visited last is
that it is not inside the expression (`Walk.Outside`), for then no operation on the way down takes
itself for finished.

So the symbols of an expression are those of its operands and then its own (`Expr.symbols_binary`),
and its atoms are among them (`Expr.mem_symbols_of_mem_atoms`).
-/

namespace Calculation

namespace Expr

/-- The occurrences of an expression that stands at `place`, operands before their operation. -/
def postOrderFrom (place : Place) : Expr → List Occurrence
  | .atom symbol => [⟨place, .atom symbol⟩]
  | .unary operator operand =>
    operand.postOrderFrom (.left :: place) ++ [⟨place, .unary operator operand⟩]
  | .binary operator lhs rhs =>
    lhs.postOrderFrom (.left :: place) ++ rhs.postOrderFrom (.right :: place) ++
      [⟨place, .binary operator lhs rhs⟩]

/-- The symbols that stand in the expression as atoms. -/
def atoms : Expr → List Symbol
  | .atom symbol => [symbol]
  | .unary _ operand => operand.atoms
  | .binary _ lhs rhs => lhs.atoms ++ rhs.atoms

end Expr

namespace Walk

/-- The place visited last is not one below `place`. -/
def Outside (lastVisited : Option Place) (place : Place) : Prop :=
  ∀ side way, lastVisited ≠ some (side :: (way ++ place))

theorem Outside.child {lastVisited : Option Place} {place : Place}
    (outside : Outside lastVisited place) (side : Side) : Outside lastVisited (side :: place) := by
  intro last way visited
  apply outside last (way ++ [side])
  rw [visited, List.append_assoc, List.singleton_append]

/-- A place is not below one that is as far from the root. -/
theorem outside_of_length_le {visited place : Place} (length : visited.length ≤ place.length) :
    Outside (some visited) place := by
  intro side way same
  rw [Option.some.inj same, List.length_cons, List.length_append] at length
  omega

theorem toList_nil (lastVisited : Option Place) : (Walk.mk [] lastVisited).toList = [] := by
  rw [toList]
  rfl

/-- A walk is the visit that it makes next and the walk from there. -/
theorem toList_of_pending (top : Occurrence) (below : List Occurrence)
    (lastVisited : Option Place) :
    (Walk.mk (top :: below) lastVisited).toList =
      (descend top.place top.expr below lastVisited).1 ::
        (descend top.place top.expr below lastVisited).2.toList := by
  rw [toList]
  rfl

/-- A walk at an operation starts with its first operand, unless the last one is just finished. -/
theorem toList_of_descend_eq {place child : Place} {expr operand : Expr}
    {below under : List Occurrence}
    {lastVisited : Option Place}
    (same : descend place expr below lastVisited = descend child operand under lastVisited) :
    (Walk.mk (⟨place, expr⟩ :: below) lastVisited).toList =
      (Walk.mk (⟨child, operand⟩ :: under) lastVisited).toList := by
  rw [toList_of_pending, toList_of_pending, same]

/-- A walk at an expression visits its occurrences and goes on with what is below on the stack. -/
theorem toList_cons (expr : Expr) (place : Place) (below : List Occurrence)
    {lastVisited : Option Place} (outside : Outside lastVisited place) :
    (Walk.mk (⟨place, expr⟩ :: below) lastVisited).toList =
      expr.postOrderFrom place ++ (Walk.mk below (some place)).toList := by
  induction expr generalizing place below lastVisited with
  | atom symbol => rw [toList_of_pending]; rfl
  | unary operator operand ih =>
      have unvisited : lastVisited ≠ some (.left :: place) := outside .left []
      have starts : descend place (.unary operator operand) below lastVisited =
          descend (.left :: place) operand (⟨place, .unary operator operand⟩ :: below)
            lastVisited := by
        rw [descend, if_neg unvisited]
      have finished : (Walk.mk (⟨place, .unary operator operand⟩ :: below)
          (some (.left :: place))).toList =
          ⟨place, .unary operator operand⟩ :: (Walk.mk below (some place)).toList := by
        rw [toList_of_pending]
        simp only [descend, if_true]
      rw [toList_of_descend_eq starts, ih _ _ (outside.child .left), finished, Expr.postOrderFrom,
        List.append_assoc, List.singleton_append]
  | binary operator lhs rhs ihl ihr =>
      have unvisited : lastVisited ≠ some (.right :: place) := outside .right []
      have starts : descend place (.binary operator lhs rhs) below lastVisited =
          descend (.left :: place) lhs
            (⟨.right :: place, rhs⟩ :: ⟨place, .binary operator lhs rhs⟩ :: below) lastVisited := by
        rw [descend, if_neg unvisited]
      have finished : (Walk.mk (⟨place, .binary operator lhs rhs⟩ :: below)
          (some (.right :: place))).toList =
          ⟨place, .binary operator lhs rhs⟩ :: (Walk.mk below (some place)).toList := by
        rw [toList_of_pending]
        simp only [descend, if_true]
      rw [toList_of_descend_eq starts, ihl _ _ (outside.child .left),
        ihr _ _ (outside_of_length_le (by simp)), finished, Expr.postOrderFrom]
      simp only [List.append_assoc, List.singleton_append]

end Walk

namespace Expr

/-- The walk through an expression visits what the recursion lists. -/
theorem postOrder_eq_postOrderFrom (expr : Expr) : expr.postOrder = expr.postOrderFrom [] := by
  have nowhere : Walk.Outside none [] := by
    intro side way visited
    cases visited
  rw [postOrder, Walk.start, Walk.toList_cons expr [] [] nowhere, Walk.toList_nil, List.append_nil]

/-! ## The symbols of an expression -/

/-- The symbols that stand at the occurrences do not depend on where the expression stands. -/
theorem map_symbol_postOrderFrom (expr : Expr) (place : Place) :
    (expr.postOrderFrom place).map (·.expr.symbol) = expr.symbols := by
  have anywhere : ∀ here there, (expr.postOrderFrom here).map (·.expr.symbol) =
      (expr.postOrderFrom there).map (·.expr.symbol) := by
    induction expr with
    | atom symbol => exact fun _ _ => rfl
    | unary operator operand ih =>
        intro here there
        rw [postOrderFrom, postOrderFrom, List.map_append, List.map_append,
          ih (.left :: here) (.left :: there)]
        rfl
    | binary operator lhs rhs ihl ihr =>
        intro here there
        simp only [postOrderFrom, List.map_append]
        rw [ihl (.left :: here) (.left :: there), ihr (.right :: here) (.right :: there)]
        rfl
  rw [symbols, postOrder_eq_postOrderFrom]
  exact anywhere place []

@[simp] theorem symbols_atom (symbol : Symbol) : (atom symbol).symbols = [symbol] := by
  rw [← map_symbol_postOrderFrom _ []]
  rfl

@[simp] theorem symbols_unary (operator : Symbol) (operand : Expr) :
    (unary operator operand).symbols = operand.symbols ++ [operator] := by
  rw [← map_symbol_postOrderFrom _ [], postOrderFrom, List.map_append, map_symbol_postOrderFrom]
  rfl

@[simp] theorem symbols_binary (operator : Symbol) (lhs rhs : Expr) :
    (binary operator lhs rhs).symbols = lhs.symbols ++ rhs.symbols ++ [operator] := by
  rw [← map_symbol_postOrderFrom _ [], postOrderFrom, List.map_append, List.map_append,
    map_symbol_postOrderFrom, map_symbol_postOrderFrom]
  rfl

/-- The atoms of an expression are among its symbols. -/
theorem mem_symbols_of_mem_atoms {expr : Expr} {symbol : Symbol} (mem : symbol ∈ expr.atoms) :
    symbol ∈ expr.symbols := by
  induction expr with
  | atom own => rwa [symbols_atom]
  | unary operator operand ih =>
      rw [symbols_unary]
      exact List.mem_append_left _ (ih mem)
  | binary operator lhs rhs ihl ihr =>
      rw [symbols_binary]
      rcases List.mem_append.1 mem with left | right
      · exact List.mem_append_left _ (List.mem_append_left _ (ihl left))
      · exact List.mem_append_left _ (List.mem_append_right _ (ihr right))

end Expr

end Calculation
