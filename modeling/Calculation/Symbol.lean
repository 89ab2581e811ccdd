/-!
Symbols: the named signs that expressions and relations are made of.

Variables, constants, operators and relation signs are all symbols.  A relation sign can have other
texts for a relation whose sides are swapped, for one that is negated, and for one that is both.
Symbols are equal if their names and all these texts are.
-/

namespace Calculation

/-- A sign with its name and its other texts. -/
structure Symbol where
  /-- The text of the symbol as it is, which is also its name. -/
  name : String
  /-- The text in a relation with its sides swapped. -/
  reversed : Option String := none
  /-- The text in a negated relation. -/
  negated : Option String := none
  /-- The text in a negated relation with its sides swapped. -/
  reversedNegated : Option String := none
deriving DecidableEq

namespace Symbol

/-- A relation sign with all of its texts. -/
def relation (name reversed negated reversedNegated : String) : Symbol :=
  ⟨name, some reversed, some negated, some reversedNegated⟩

/-- The text of the symbol in a relation that is reversed or negated.  A missing text is replaced by
the name, and a missing one for both by that of a negated relation before. -/
def text (symbol : Symbol) (reversed negated : Bool) : String :=
  let other :=
    match reversed, negated with
    | false, false => none
    | true, false => symbol.reversed
    | false, true => symbol.negated
    | true, true => symbol.reversedNegated <|> symbol.negated
  other.getD symbol.name

/-! ## The symbols of the language -/

def product : Symbol := { name := "⋅" }

def sum : Symbol := { name := "+" }

/-- Subtraction, and negation of a single operand. -/
def minus : Symbol := { name := "-" }

def quotient : Symbol := { name := "/" }

/-- Equality.  That `a ≠ b` is that `a = b` is not so. -/
def equality : Symbol := relation "=" "=" "≠" "≠"

/-- Strict order.  That `a > b` is that `a < b` with its sides swapped, and `a ≥ b` that `a < b` is
not so. -/
def less : Symbol := relation "<" ">" "≥" "≤"

/-- What stands for the expression that a link of a chain continues from. -/
def placeholder : Symbol := { name := "__" }

end Symbol

end Calculation
