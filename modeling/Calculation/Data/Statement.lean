import Calculation.Data
import Calculation.Theory

/-!
How symbols, expressions, relations, links and rules are written as data.

Each of them has its written form, and what is written can be read back.  Reading checks only that
the parts are there and of the right kind: a rule that quantifies twice over a symbol is read as it
stands.
-/

namespace Calculation

/-! ## Symbols -/

def Symbol.toData (symbol : Symbol) : Data := .record [
  ("name", .text symbol.name),
  ("backward", .ofText? symbol.reversed),
  ("forward_negated", .ofText? symbol.negated),
  ("backward_negated", .ofText? symbol.reversedNegated)]

/-- Reads a symbol.  All texts but its name can be missing. -/
def Symbol.ofData? (data : Data) : Option Symbol := do
  guard (data.hasParts 4)
  let name ← data.read? 0 "name" Data.text?
  let reversed ← data.readText? 1 "backward"
  let negated ← data.readText? 2 "forward_negated"
  let reversedNegated ← data.readText? 3 "backward_negated"
  pure { name, reversed, negated, reversedNegated }

/-! ## Expressions -/

/-- The written form of an expression. -/
def Expr.toData : Expr → Data
  | .atom symbol => .record [("Atom", symbol.toData)]
  | .unary operator operand => .record [("Unary", .list [operator.toData, operand.toData])]
  | .binary operator lhs rhs =>
    .record [("Binary", .list [operator.toData, lhs.toData, rhs.toData])]

def Expr.ofData? : Data → Option Expr
  | .record [("Atom", symbol)] => (Symbol.ofData? symbol).map .atom
  | .record [("Unary", .list [operator, operand])] => do
    pure (.unary (← Symbol.ofData? operator) (← ofData? operand))
  | .record [("Binary", .list [operator, lhs, rhs])] => do
    pure (.binary (← Symbol.ofData? operator) (← ofData? lhs) (← ofData? rhs))
  | _ => none

/-! ## Relations and links -/

def Relation.toData (relation : Relation) : Data := .record [
  ("symbol", relation.comparator.symbol.toData),
  ("lhs", relation.lhs.toData),
  ("rhs", relation.rhs.toData),
  ("reversed", .boolean relation.comparator.reversed),
  ("negated", .boolean relation.comparator.negated)]

def Relation.ofData? (data : Data) : Option Relation := do
  guard (data.hasParts 5)
  let symbol ← data.read? 0 "symbol" Symbol.ofData?
  let lhs ← data.read? 1 "lhs" Expr.ofData?
  let rhs ← data.read? 2 "rhs" Expr.ofData?
  let reversed ← data.read? 3 "reversed" Data.boolean?
  let negated ← data.read? 4 "negated" Data.boolean?
  pure ⟨lhs, { symbol, reversed, negated }, rhs⟩

/-- The written form of a link. -/
def Link.toData (link : Link) : Data := .record [
  ("symbol", link.comparator.symbol.toData),
  ("expr", link.target.toData),
  ("reversed", .boolean link.comparator.reversed),
  ("negated", .boolean link.comparator.negated)]

def Link.ofData? (data : Data) : Option Link := do
  guard (data.hasParts 4)
  let symbol ← data.read? 0 "symbol" Symbol.ofData?
  let target ← data.read? 1 "expr" Expr.ofData?
  let reversed ← data.read? 2 "reversed" Data.boolean?
  let negated ← data.read? 3 "negated" Data.boolean?
  pure ⟨{ symbol, reversed, negated }, target⟩

/-! ## Rules -/

def Rule.toData (rule : Rule) : Data := .record [
  ("name", .text rule.name),
  ("quantified", .ofList Symbol.toData rule.quantified),
  ("summands", .ofList Relation.toData rule.disjuncts)]

def Rule.ofData? (data : Data) : Option Rule := do
  guard (data.hasParts 3)
  let name ← data.read? 0 "name" Data.text?
  let quantified ← data.read? 1 "quantified" (Data.list? Symbol.ofData?)
  let disjuncts ← data.read? 2 "summands" (Data.list? Relation.ofData?)
  pure { name, quantified, disjuncts }

def Theory.toData (theory : Theory) : Data :=
  .record [("rules", .ofList Rule.toData theory.rules)]

def Theory.ofData? (data : Data) : Option Theory := do
  guard (data.hasParts 1)
  let rules ← data.read? 0 "rules" (Data.list? Rule.ofData?)
  pure { rules }

/-! ## Directions -/

def Direction.name : Direction → String
  | forward => "Forward"
  | backward => "Backward"

def Direction.toData (direction : Direction) : Data := .text direction.name

def Direction.ofData? (data : Data) : Option Direction :=
  data.alternative?.bind fun name => [forward, backward].find? (·.name = name)

end Calculation
