import Mathlib.Data.Finset.Card
import Mathlib.Data.Finset.Dedup
import Calculation.Proofs.Renaming

/-!
The search for a new name ends, and new names are new.

The search tries the name in upper case, or else the name with a prime, and from a name that is taken
it goes on to the one with a prime more (`Tries`).  Names with different numbers of primes differ in
length, so as many names are taken as primes were appended to no avail (`Tries.primes_le`).  The name
that is found is one of those tried, although taken names are struck off on the way
(`Tries.exists_primed`).

* `Symbol.fresh_renews`: what is made of one symbol, and of any number of them one after the other.
-/

namespace Calculation

/-! ## The names tried -/

/-- The search for a name like this one comes to try the candidate, to which so many primes are
appended by then. -/
inductive Tries (name : String) (taken : List String) : (candidate : String) → (primes : Nat) → Prop
  | upper (different : Text.upper name ≠ name) (free : Text.upper name ∉ taken) :
    Tries name taken (Text.upper name) 0
  | prime (barred : Text.upper name = name ∨ Text.upper name ∈ taken) :
    Tries name taken (name ++ "'") 1
  | again {candidate : String} {primes : Nat} (tries : Tries name taken candidate primes)
    (mem : candidate ∈ taken) : Tries name taken (candidate ++ "'") (primes + 1)

/-- The name with so many primes. -/
def withPrimes (name : String) : (primes : Nat) → String
  | 0 => name
  | primes + 1 => withPrimes name primes ++ "'"

theorem length_withPrimes (name : String) (primes : Nat) :
    (withPrimes name primes).length = name.length + primes := by
  induction primes with
  | zero => rfl
  | succ primes ih =>
      rw [withPrimes, String.length_append, ih]
      rfl

theorem withPrimes_injective (name : String) : Function.Injective (withPrimes name) := by
  intro primes others same
  have lengths := congrArg String.length same
  rw [length_withPrimes, length_withPrimes] at lengths
  omega

variable {name candidate : String} {taken : List String} {primes : Nat}

/-- A name that is tried is the one in upper case, which is not taken, or it has primes, and all names
with less of them are taken. -/
theorem Tries.upper_or_primed (tries : Tries name taken candidate primes) :
    candidate ∉ taken ∧ primes = 0 ∨
      candidate = withPrimes name primes ∧
        ∀ fewer, 0 < fewer → fewer < primes → withPrimes name fewer ∈ taken := by
  induction tries with
  | upper different free => exact .inl ⟨free, rfl⟩
  | prime barred => exact .inr ⟨rfl, fun fewer pos less => by omega⟩
  | @again candidate primes tries mem ih =>
      rcases ih with ⟨free, -⟩ | ⟨rfl, used⟩
      · exact absurd mem free
      · refine .inr ⟨rfl, fun fewer pos less => ?_⟩
        rcases Nat.lt_succ_iff_lt_or_eq.1 less with less | rfl
        · exact used fewer pos less
        · exact mem

/-- Names with different numbers of primes are different names, and those with fewer primes than the
one that is tried are all taken. -/
theorem Tries.primes_le (tries : Tries name taken candidate primes) :
    primes ≤ taken.toFinset.card + 1 := by
  rcases tries.upper_or_primed with ⟨-, rfl⟩ | ⟨-, used⟩
  · exact Nat.zero_le _
  · have taken_of_lt : ∀ fewer ∈ Finset.range (primes - 1),
        withPrimes name (fewer + 1) ∈ taken.toFinset := by
      intro fewer mem
      have less := Finset.mem_range.1 mem
      exact List.mem_toFinset.2 (used (fewer + 1) fewer.succ_pos (by omega))
    have counted := Finset.card_le_card_of_injOn _ taken_of_lt fun fewer _ other _ same =>
      Nat.succ.inj (withPrimes_injective name same)
    rw [Finset.card_range] at counted
    omega

/-! ## The name found -/

/-- Names that are struck off on the way are not met again, so the search comes to the same names
with what is left of the list. -/
theorem Tries.exists_primed (tries : Tries name taken candidate primes) {left : List String}
    (same : ∀ other : String, candidate.length ≤ other.length → (other ∈ left ↔ other ∈ taken)) :
    ∃ more, Tries name taken (primed candidate left) more := by
  fun_induction primed candidate left generalizing primes with
  | case1 candidate left mem ih =>
      refine ih (.again tries ((same candidate (Nat.le_refl _)).1 mem)) fun other longer => ?_
      rw [String.length_append] at longer
      have prime : "'".length = 1 := rfl
      have different : other ≠ candidate := by
        rintro rfl
        omega
      rw [List.mem_erase_of_ne different]
      exact same other (by omega)
  | case2 candidate left free => exact ⟨primes, tries⟩

theorem exists_tries_freshName (name : String) (taken : List String) :
    ∃ primes, Tries name taken (freshName name taken) primes := by
  unfold freshName
  dsimp only
  split
  · rename_i upper
    exact ⟨0, .upper upper.1 upper.2⟩
  · rename_i barred
    have start : Tries name taken (name ++ "'") 1 :=
      .prime ((not_and_or.1 barred).imp not_not.1 not_not.1)
    exact start.exists_primed fun _ _ => Iff.rfl

namespace Symbol

/-! ## New symbols -/

/-- What making a new symbol does: `new` is made, and the names in `after` are taken then. -/
structure Renewed (symbol : Symbol) (taken : List String) (new : Symbol) (after : List String) :
    Prop where
  /-- The search comes to the new name before long.  There it stops, as this name is not taken. -/
  found : ∃ primes ≤ taken.toFinset.card + 1, Tries symbol.name taken new.name primes
  free : new.name ∉ taken
  /-- The new symbol has no other texts. -/
  plain : new = { name := new.name }
  after_eq : after.toFinset = insert new.name taken.toFinset

theorem renewed_fresh (symbol : Symbol) (taken : List String) :
    symbol.Renewed taken (symbol.fresh taken).1 (symbol.fresh taken).2 := by
  obtain ⟨primes, tries⟩ := exists_tries_freshName symbol.name taken
  have free := freshName_not_mem symbol.name taken
  unfold fresh
  -- from here on it does not matter how the name was found
  generalize freshName symbol.name taken = name at tries free ⊢
  exact {
    found := ⟨primes, tries.primes_le, tries⟩
    free := free
    plain := rfl
    after_eq := List.toFinset_cons }

/-- New symbols for all of the symbols, one after the other, and the names taken after that. -/
def freshAll : List Symbol → (taken : List String) → List Symbol × List String
  | [], taken => ([], taken)
  | symbol :: rest, taken =>
    let (new, taken) := symbol.fresh taken
    let (others, taken) := freshAll rest taken
    (new :: others, taken)

/-- What making several new symbols does. -/
structure RenewedApart (taken : List String) (made : List Symbol) (after : List String) : Prop where
  distinct : (made.map Symbol.name).Nodup
  free : ∀ name ∈ made.map Symbol.name, name ∉ taken
  after_eq : after.toFinset = (made.map Symbol.name).toFinset ∪ taken.toFinset

/-- The symbols made later are kept apart from the first one, since its name is taken by then. -/
theorem RenewedApart.cons {symbol new : Symbol} {taken middle after : List String}
    {made : List Symbol} (first : symbol.Renewed taken new middle)
    (later : RenewedApart middle made after) : RenewedApart taken (new :: made) after := by
  have mem_middle : ∀ name, name ∈ middle ↔ name = new.name ∨ name ∈ taken := by
    intro name
    rw [← List.mem_toFinset, first.after_eq, Finset.mem_insert, List.mem_toFinset]
  have apart : new.name ∉ made.map Symbol.name := by
    intro again
    exact later.free new.name again ((mem_middle new.name).2 (.inl rfl))
  refine ⟨List.nodup_cons.2 ⟨apart, later.distinct⟩, fun name mem used => ?_, ?_⟩
  · rcases List.mem_cons.1 mem with rfl | mem
    · exact first.free used
    · exact later.free name mem ((mem_middle name).2 (.inr used))
  · rw [later.after_eq, first.after_eq, List.map_cons, List.toFinset_cons, Finset.union_insert,
      Finset.insert_union]

/-- Whatever names are taken, the search for a new one ends, with one prime more at most than there
are names taken, and all that is changed is that the new name is taken too.  So any number of new
symbols have different names. -/
theorem fresh_renews :
    (∀ (symbol : Symbol) (taken : List String),
      symbol.Renewed taken (symbol.fresh taken).1 (symbol.fresh taken).2) ∧
    ∀ (symbols : List Symbol) (taken : List String),
      RenewedApart taken (freshAll symbols taken).1 (freshAll symbols taken).2 := by
  refine ⟨renewed_fresh, fun symbols => ?_⟩
  induction symbols with
  | nil => exact fun taken => ⟨List.nodup_nil, nofun, (Finset.empty_union _).symm⟩
  | cons symbol rest ih => exact fun taken => .cons (renewed_fresh symbol taken) (ih _)

/-- All the primes can be needed. -/
example : (fresh { name := "0" } ["0'", "0''"]).1 = { name := "0'''" } := by
  cbv

end Symbol

end Calculation
