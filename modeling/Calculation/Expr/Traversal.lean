import Calculation.Expr

/-!
Visiting the subexpressions of an expression, operands before the operation they belong to.

A `Walk` keeps the occurrences that are still to be visited on a stack.  An operation stays on the
stack below its operands, and comes up again when they have been visited; it knows that from the
place of the occurrence visited last.  Occurrences are told apart by their place in the expression
and not by what stands there, since equal subexpressions may stand at many places.

`Walk.owed` counts the visits that are still to come.  Each step of a walk, whatever the state it
starts from, leaves fewer of them, hence every walk ends (`Walk.toList`).
-/

namespace Calculation

/-- The way from an occurrence up to the root: the sides it and the operations above it stand on. -/
abbrev Place := List Side

/-- A subexpression at one place of an expression. -/
structure Occurrence where
  place : Place
  expr : Expr
deriving DecidableEq

/-- The place of the last operand, which the operation is visited directly after. -/
def Occurrence.lastOperand? (occurrence : Occurrence) : Option Place :=
  match occurrence.expr with
  | .atom _ => none
  | .unary _ _ => some (.left :: occurrence.place)
  | .binary _ _ _ => some (.right :: occurrence.place)

/-- The occurrences of the operands, from left to right. -/
def Occurrence.operands (occurrence : Occurrence) : List Occurrence :=
  match occurrence.expr with
  | .atom _ => []
  | .unary _ operand => [⟨.left :: occurrence.place, operand⟩]
  | .binary _ lhs rhs => [⟨.left :: occurrence.place, lhs⟩, ⟨.right :: occurrence.place, rhs⟩]

/-- Whether no operand has to be visited before the occurrence. -/
def Occurrence.isReady (occurrence : Occurrence) (lastVisited : Option Place) : Bool :=
  occurrence.lastOperand?.all fun operand => lastVisited = some operand

/-- How far the visiting of an expression has come. -/
structure Walk where
  /-- The occurrences still to be visited, the next one first. -/
  pending : List Occurrence
  /-- The place that was visited last. -/
  lastVisited : Option Place
deriving DecidableEq

namespace Walk

def start (expr : Expr) : Walk := ⟨[⟨[], expr⟩], none⟩

/-- Goes down from the expression at `place` to the first occurrence that has no operand left to be
visited, putting what it passes on the stack, and visits that one. -/
def descend (place : Place) (expr : Expr) (below : List Occurrence) (lastVisited : Option Place) :
    Occurrence × Walk :=
  match expr with
  | .atom symbol => (⟨place, .atom symbol⟩, ⟨below, some place⟩)
  | .unary operator operand =>
    let here : Occurrence := ⟨place, .unary operator operand⟩
    if lastVisited = some (.left :: place) then (here, ⟨below, some place⟩)
    else descend (.left :: place) operand (here :: below) lastVisited
  | .binary operator lhs rhs =>
    let here : Occurrence := ⟨place, .binary operator lhs rhs⟩
    if lastVisited = some (.right :: place) then (here, ⟨below, some place⟩)
    else descend (.left :: place) lhs (⟨.right :: place, rhs⟩ :: here :: below) lastVisited

/-- Visits the next occurrence. -/
def next? (walk : Walk) : Option (Occurrence × Walk) :=
  match walk.pending with
  | [] => none
  | top :: below => some (descend top.place top.expr below walk.lastVisited)

/-! ## Every walk ends -/

/-- The visits owed to an occurrence that comes directly after the place `above`: one to an
operation whose last operand stands there, and else one to every subexpression. -/
def due (above : Option Place) (occurrence : Occurrence) : Nat :=
  if occurrence.lastOperand? = above then 1 else occurrence.expr.size

/-- The visits owed to the occurrences of a stack that come directly after the place `above`. -/
def owedTo (above : Option Place) : List Occurrence → Nat
  | [] => 0
  | occurrence :: below => due above occurrence + owedTo (some occurrence.place) below

/-- The visits that are still to come. -/
def owed (walk : Walk) : Nat := owedTo walk.lastVisited walk.pending

/-- No occurrence is owed more visits than it has subexpressions. -/
theorem due_le_size (above : Option Place) (occurrence : Occurrence) :
    due above occurrence ≤ occurrence.expr.size := by
  unfold due
  split
  · cases occurrence.expr <;> simp [Expr.size]
  · exact Nat.le_refl _

/-- An occurrence is owed one visit or more. -/
theorem due_pos (above : Option Place) (occurrence : Occurrence) : 0 < due above occurrence := by
  unfold due
  split
  · exact Nat.one_pos
  · cases occurrence.expr <;> simp [Expr.size]

/-- Putting the operands of an operation on the stack adds no visits, since they are owed visits
already, as parts of the operation. -/
theorem owedTo_operands_le (top : Occurrence) {lastVisited : Option Place}
    (waiting : top.isReady lastVisited = false) (below : List Occurrence) :
    owedTo lastVisited (top.operands ++ top :: below) ≤ owedTo lastVisited (top :: below) := by
  rcases top with ⟨place, expr⟩
  cases expr with
  | atom symbol => cases waiting
  | unary operator operand =>
    have unvisited : lastVisited ≠ some (.left :: place) := of_decide_eq_false waiting
    have all : due lastVisited ⟨place, .unary operator operand⟩ = operand.size + 1 :=
      if_neg (Ne.symm unvisited)
    have one : due (some (.left :: place)) ⟨place, .unary operator operand⟩ = 1 := if_pos rfl
    have operandDue := due_le_size lastVisited ⟨.left :: place, operand⟩
    simp only [Occurrence.operands, List.cons_append, List.nil_append, owedTo, all, one]
    simp only at operandDue
    omega
  | binary operator lhs rhs =>
    have unvisited : lastVisited ≠ some (.right :: place) := of_decide_eq_false waiting
    have all : due lastVisited ⟨place, .binary operator lhs rhs⟩ = lhs.size + rhs.size + 1 :=
      if_neg (Ne.symm unvisited)
    have one : due (some (.right :: place)) ⟨place, .binary operator lhs rhs⟩ = 1 := if_pos rfl
    have lhsDue := due_le_size lastVisited ⟨.left :: place, lhs⟩
    have rhsDue := due_le_size (some (.left :: place)) ⟨.right :: place, rhs⟩
    simp only [Occurrence.operands, List.cons_append, List.nil_append, owedTo, all, one]
    simp only at lhsDue rhsDue
    omega

/-- Going down and visiting an occurrence leaves fewer visits to come. -/
theorem owed_descend_lt (place : Place) (expr : Expr) (below : List Occurrence)
    (lastVisited : Option Place) :
    (descend place expr below lastVisited).2.owed <
      owedTo lastVisited (⟨place, expr⟩ :: below) := by
  have pos := due_pos lastVisited ⟨place, expr⟩
  induction expr generalizing place below with
  | atom symbol =>
    simp only [descend, owed, owedTo]
    omega
  | unary operator operand ih =>
    unfold descend
    simp only
    split
    · simp only [owed, owedTo]
      omega
    · rename_i unvisited
      refine Nat.lt_of_lt_of_le (ih _ _ (due_pos ..)) ?_
      exact owedTo_operands_le ⟨place, .unary operator operand⟩ (decide_eq_false unvisited) below
  | binary operator lhs rhs ih _ =>
    unfold descend
    simp only
    split
    · simp only [owed, owedTo]
      omega
    · rename_i unvisited
      refine Nat.lt_of_lt_of_le (ih _ _ (due_pos ..)) ?_
      exact owedTo_operands_le ⟨place, .binary operator lhs rhs⟩ (decide_eq_false unvisited) below

/-- Every visit leaves fewer of them to come. -/
theorem owed_lt_of_next? {walk after : Walk} {visited : Occurrence}
    (step : walk.next? = some (visited, after)) : after.owed < walk.owed := by
  unfold next? at step
  split at step
  · cases step
  · rename_i top below pending
    have shorter := owed_descend_lt top.place top.expr below walk.lastVisited
    rw [Option.some.inj step] at shorter
    unfold owed at shorter ⊢
    rw [pending]
    exact shorter

/-- The occurrences that the walk still visits, in the order of its visits. -/
def toList (walk : Walk) : List Occurrence :=
  match _step : walk.next? with
  | none => []
  | some (visited, after) => visited :: after.toList
termination_by walk.owed
decreasing_by exact owed_lt_of_next? _step

end Walk

namespace Expr

/-- The occurrences of all subexpressions, operands before their operation. -/
def postOrder (expr : Expr) : List Occurrence := (Walk.start expr).toList

/-- The symbols of all subexpressions, those of operators included, in the order of visits. -/
def symbols (expr : Expr) : List Symbol := expr.postOrder.map (·.expr.symbol)

/-- Whether the symbol occurs anywhere in the expression. -/
def mentions (expr : Expr) (symbol : Symbol) : Bool := expr.symbols.any (· = symbol)

def nodeCount (expr : Expr) : Nat := expr.postOrder.length

end Expr

end Calculation
