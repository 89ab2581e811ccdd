import Calculation.Theory

/-!
The rules of addition and multiplication that a session starts with: neutral elements,
commutativity, associativity, distributivity, and the cancellation of a common right factor.
-/

namespace Calculation.Theory

def standard : Theory :=
  let x := Expr.named "x"
  let y := Expr.named "y"
  let z := Expr.named "z"
  let c := Expr.named "c"
  let zero := Expr.named "0"
  let one := Expr.named "1"
  let symbols (names : List String) : List Symbol := names.map fun name => { name := name }
  let rule (name : String) (quantified : List String) (lhs rhs : Expr) : Rule :=
    .simple name (symbols quantified) ⟨lhs, .equal, rhs⟩
  ⟨[rule "neutral" ["x"] (x * one) x,
    rule "neutral" ["x"] (one * x) x,
    rule "neutral" ["x"] (x + zero) x,
    rule "neutral" ["x"] (zero + x) x,
    rule "commutativity" ["x", "y"] (x * y) (y * x),
    rule "associativity" ["x", "y", "z"] ((x * y) * z) (x * (y * z)),
    rule "commutativity" ["x", "y"] (x + y) (y + x),
    rule "associativity" ["x", "y", "z"] ((x + y) + z) (x + (y + z)),
    rule "distributivity" ["x", "y", "z"] ((x + y) * z) ((x * z) + (y * z)),
    rule "distributivity" ["x", "y", "z"] (z * (x + y)) ((z * x) + (z * y)),
    .implication "cancellation" (symbols ["x", "y", "c"]) ⟨x * c, .equal, y * c⟩
      [⟨x, .equal, y⟩]]⟩

end Calculation.Theory
