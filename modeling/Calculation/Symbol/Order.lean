import Calculation.Symbol

/-!
The order of symbols: by name, and then by their other texts.

Texts are compared by the code points of their characters, which is also the order of their bytes
in UTF-8, and a text that is missing comes before any that is there.
-/

namespace Calculation

/-- The order of two texts by their characters, a text before all those it begins. -/
def Text.order : List Char → List Char → Ordering
  | [], [] => .eq
  | [], _ :: _ => .lt
  | _ :: _, [] => .gt
  | c :: first, d :: second =>
    if c.toNat = d.toNat then Text.order first second
    else if c.toNat < d.toNat then .lt
    else .gt

namespace Symbol

/-- The order of two texts that may be missing. -/
def orderOther : Option String → Option String → Ordering
  | none, none => .eq
  | none, some _ => .lt
  | some _, none => .gt
  | some first, some second => Text.order first.toList second.toList

def order (first second : Symbol) : Ordering :=
  (Text.order first.name.toList second.name.toList).then <|
    (orderOther first.reversed second.reversed).then <|
      (orderOther first.negated second.negated).then <|
        orderOther first.reversedNegated second.reversedNegated

/-- Whether the first symbol may stand before the second. -/
def before (first second : Symbol) : Bool := first.order second != .gt

def sort (symbols : List Symbol) : List Symbol := symbols.mergeSort before

end Symbol

end Calculation
