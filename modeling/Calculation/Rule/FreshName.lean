import Calculation.Text.Uppercase
import Calculation.Symbol

/-!
New names for symbols.

The new name of a symbol is its name in upper case, or else its name with a prime.  As long as the
name found is taken, one more prime is appended.
-/

namespace Calculation

/-- The name with as many primes appended as it takes to be none of those taken.

A name that is taken is struck off before the next one is tried.  The names tried grow longer, so
none of them is met again, and the search ends when all are struck off at the latest. -/
def primed (name : String) (taken : List String) : String :=
  if name ∈ taken then primed (name ++ "'") (taken.erase name) else name
termination_by taken.length
decreasing_by
  rename_i mem
  rw [List.length_erase_of_mem mem]
  exact Nat.sub_lt (List.length_pos_of_mem mem) Nat.one_pos

/-- A name like the given one that is not taken. -/
def freshName (name : String) (taken : List String) : String :=
  let upper := Text.upper name
  if upper ≠ name ∧ upper ∉ taken then upper else primed (name ++ "'") taken

/-- A symbol with a new name, and the names taken after that. -/
def Symbol.fresh (symbol : Symbol) (taken : List String) : Symbol × List String :=
  let name := freshName symbol.name taken
  ({ name := name }, name :: taken)

end Calculation
