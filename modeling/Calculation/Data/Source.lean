import Calculation.Data
import Calculation.Source.Tree

/-!
How trees, comparisons and declarations are written as data, with the regions of the source that
they were read from.
-/

namespace Calculation

def Span.toData (span : Span) : Data :=
  .record [("start", .ofNat span.start), ("end", .ofNat span.stop)]

/-- Whether the name is that of one of the ends of a region. -/
def Span.isEnd (name : String) : Bool := name = "start" || name = "end"

/-- Reads a region, which must hold nothing but its ends. -/
def Span.ofData? (data : Data) : Option Span := do
  guard (data.hasParts 2)
  if let .record fields := data then
    guard (fields.all fun (name, _) => isEnd name)
  let start ← data.read? 0 "start" Data.natural?
  let stop ← data.read? 1 "end" Data.natural?
  pure ⟨start, stop⟩

namespace Source

/-! ## Operators -/

def UnaryOperator.name : UnaryOperator → String
  | minus => "Neg"

def BinaryOperator.name : BinaryOperator → String
  | times => "Mul"
  | dividedBy => "Div"
  | plus => "Add"
  | minus => "Sub"

def RelationalOperator.name : RelationalOperator → String
  | equal => "Eq"
  | notEqual => "NotEq"
  | less => "Less"
  | greater => "Greater"
  | atMost => "LessEq"
  | atLeast => "GreaterEq"

def UnaryOperator.ofData? (data : Data) : Option UnaryOperator :=
  data.alternative?.bind fun name => [minus].find? (·.name = name)

def BinaryOperator.ofData? (data : Data) : Option BinaryOperator :=
  data.alternative?.bind fun name => [times, dividedBy, plus, minus].find? (·.name = name)

def RelationalOperator.ofData? (data : Data) : Option RelationalOperator :=
  data.alternative?.bind fun name =>
    [equal, notEqual, less, greater, atMost, atLeast].find? (·.name = name)

def Placed.toData {Operator : Type} (name : Operator → String) (placed : Placed Operator) : Data :=
  .record [("kind", .text (name placed.kind)), ("span", placed.span.toData)]

def Placed.ofData? {Operator : Type} (readKind : Data → Option Operator) (data : Data) :
    Option (Placed Operator) := do
  guard (data.hasParts 2)
  let kind ← data.read? 0 "kind" readKind
  let span ← data.read? 1 "span" Span.ofData?
  pure ⟨kind, span⟩

/-! ## Expressions -/

def Atom.toData (atom : Atom) : Data :=
  .record [("name", .text atom.name), ("span", atom.span.toData)]

/-- Reads an atom. -/
def Atom.ofData? (data : Data) : Option Atom := do
  guard (data.hasParts 2)
  let name ← data.read? 0 "name" Data.text?
  let span ← data.read? 1 "span" Span.ofData?
  pure ⟨name, span⟩

def Tree.toData : Tree → Data
  | .atom leaf => .record [("Atom", leaf.toData)]
  | .paren inner span =>
    .record [("Paren", .record [("expr", inner.toData), ("span", span.toData)])]
  | .unary operator operand span =>
    .record [("Unary", .record [("op", operator.toData UnaryOperator.name),
      ("operand", operand.toData), ("span", span.toData)])]
  | .binary lhs operator rhs span =>
    .record [("Binary", .record [("lhs", lhs.toData), ("op", operator.toData BinaryOperator.name),
      ("rhs", rhs.toData), ("span", span.toData)])]

def Tree.ofData? : Data → Option Tree
  | .record [("Atom", content)] => (Atom.ofData? content).map .atom
  | .record [("Paren", content)] =>
    if content.hasParts 2 then do
      let ⟨inner, _⟩ ← (content.part? 0 "expr").attach
      let span ← content.read? 1 "span" Span.ofData?
      pure (.paren (← ofData? inner) span)
    else none
  | .record [("Unary", content)] =>
    if content.hasParts 3 then do
      let operator ← content.read? 0 "op" (Placed.ofData? UnaryOperator.ofData?)
      let ⟨operand, _⟩ ← (content.part? 1 "operand").attach
      let span ← content.read? 2 "span" Span.ofData?
      pure (.unary operator (← ofData? operand) span)
    else none
  | .record [("Binary", content)] =>
    if content.hasParts 4 then do
      let ⟨lhs, _⟩ ← (content.part? 0 "lhs").attach
      let operator ← content.read? 1 "op" (Placed.ofData? BinaryOperator.ofData?)
      let ⟨rhs, _⟩ ← (content.part? 2 "rhs").attach
      let span ← content.read? 3 "span" Span.ofData?
      pure (.binary (← ofData? lhs) operator (← ofData? rhs) span)
    else none
  | _ => none
termination_by data => data
decreasing_by
  all_goals
    refine Nat.lt_trans (Data.sizeOf_lt_of_part? (by assumption)) ?_
    simp
    omega

/-! ## Comparisons and declarations -/

def Comparison.toData (comparison : Comparison) : Data := .record [
  ("lhs", comparison.lhs.toData),
  ("op", comparison.operator.toData RelationalOperator.name),
  ("rhs", comparison.rhs.toData),
  ("span", comparison.span.toData)]

def Comparison.ofData? (data : Data) : Option Comparison := do
  guard (data.hasParts 4)
  let lhs ← data.read? 0 "lhs" Tree.ofData?
  let operator ← data.read? 1 "op" (Placed.ofData? RelationalOperator.ofData?)
  let rhs ← data.read? 2 "rhs" Tree.ofData?
  let span ← data.read? 3 "span" Span.ofData?
  pure ⟨lhs, operator, rhs, span⟩

def Declaration.toData (declaration : Declaration) : Data := .record [
  ("name", declaration.name.toData),
  ("quantified", .ofList Atom.toData declaration.quantified),
  ("corollary", declaration.corollary.toData),
  ("conditions", .ofList Comparison.toData declaration.conditions),
  ("span", declaration.span.toData)]

def Declaration.ofData? (data : Data) : Option Declaration := do
  guard (data.hasParts 5)
  let name ← data.read? 0 "name" Atom.ofData?
  let quantified ← data.read? 1 "quantified" (Data.list? Atom.ofData?)
  let corollary ← data.read? 2 "corollary" Comparison.ofData?
  let conditions ← data.read? 3 "conditions" (Data.list? Comparison.ofData?)
  let span ← data.read? 4 "span" Span.ofData?
  pure ⟨name, quantified, corollary, conditions, span⟩

end Source

end Calculation
