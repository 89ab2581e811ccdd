import Calculation.Proofs.Matching
import Calculation.Rule.Resolution

/-!
How the symbols that stay quantified are kept apart from what the others stand for.

`Rule.KeptApart` says all that `Rule.keepApart` does.  The table only grows, and only by symbols
whose name is in use elsewhere.  What is quantified afterwards is an old symbol with a name of its
own or a new one, whose name is not taken.  Every symbol without a value is found again under the
name that it has afterwards, and no two symbols under the same one.

The three ways in which a symbol is treated are `KeptApart.skip`, `KeptApart.rename` and
`KeptApart.keep`; `Rule.keepApart_spec` puts them together along the list of symbols.
-/

namespace Calculation

/-! ## New names -/

/-- Priming a name never makes it shorter. -/
theorem length_le_length_primed (name : String) (taken : List String) :
    name.length ≤ (primed name taken).length := by
  fun_induction primed name taken with
  | case1 name taken mem ih =>
      rw [String.length_append] at ih
      omega
  | case2 name taken free => exact Nat.le_refl _

/-- A name that has been primed as long as it was taken is not taken.  The names struck off on the
way cannot come back, being shorter. -/
theorem primed_not_mem (name : String) (taken : List String) : primed name taken ∉ taken := by
  fun_induction primed name taken with
  | case1 name taken mem ih =>
      have longer := length_le_length_primed (name ++ "'") (taken.erase name)
      have other : primed (name ++ "'") (taken.erase name) ≠ name := by
        intro same
        rw [same, String.length_append] at longer
        have prime : "'".length = 1 := rfl
        omega
      exact fun found => ih ((List.mem_erase_of_ne other).2 found)
  | case2 name taken free => exact free

theorem freshName_not_mem (name : String) (taken : List String) : freshName name taken ∉ taken := by
  unfold freshName
  dsimp only
  split
  · rename_i upper
    exact upper.2
  · exact primed_not_mem _ taken

namespace Rule

/-! ## Keeping symbols apart -/

/-- What keeping symbols apart from the names captured does to a table, and what is quantified
afterwards. -/
structure KeptApart (captured : List String) (symbols : List Symbol) (before : Bindings)
    (taken : List String) (quantified : List Symbol) (after : Bindings) : Prop where
  quantified_eq : after.quantified = before.quantified
  kept : ∀ {symbol value}, before.get? symbol = some value → after.get? symbol = some value
  untouched : ∀ {symbol}, symbol.name ∉ captured → after.get? symbol = before.get? symbol
  origin : ∀ {new}, new ∈ quantified → new ∈ symbols ∧ new.name ∉ captured ∨ new.name ∉ taken
  image : ∀ {symbol}, symbol ∈ symbols → before.get? symbol = none →
    ∃ new ∈ quantified, (Expr.atom symbol).substitute after = .atom new
  /-- Nothing is quantified that does not stand for a symbol without a value. -/
  preimage : ∀ {new}, new ∈ quantified → ∃ symbol ∈ symbols, before.get? symbol = none ∧
    (Expr.atom symbol).substitute after = .atom new
  fresh : ∀ {symbol new}, symbol ∈ symbols → before.get? symbol = none →
    (Expr.atom symbol).substitute after = .atom new → new = symbol ∨ new.name ∉ taken
  /-- Symbols whose names are in use are still told apart. -/
  distinct : ∀ {symbol other}, symbol ∈ symbols → other ∈ symbols → before.get? symbol = none →
    before.get? other = none → symbol.name ∈ taken → other.name ∈ taken →
      (Expr.atom symbol).substitute after = (Expr.atom other).substitute after → symbol = other

variable {captured taken : List String} {symbol new : Symbol} {rest quantified : List Symbol}
  {before middle after : Bindings}

theorem KeptApart.skip {value : Expr} (bound : before.get? symbol = some value)
    (later : KeptApart captured rest before taken quantified after) :
    KeptApart captured (symbol :: rest) before taken quantified after := by
  have inRest : ∀ {other}, other ∈ symbol :: rest → before.get? other = none → other ∈ rest := by
    intro other mem free
    rcases List.mem_cons.1 mem with rfl | mem
    · rw [bound] at free
      cases free
    · exact mem
  exact {
    quantified_eq := later.quantified_eq
    kept := later.kept
    untouched := later.untouched
    origin := by
      intro new mem
      rcases later.origin mem with ⟨listed, apart⟩ | fresh
      · exact .inl ⟨List.mem_cons_of_mem _ listed, apart⟩
      · exact .inr fresh
    image := fun mem free => later.image (inRest mem free) free
    preimage := by
      intro new mem
      obtain ⟨old, listed, found⟩ := later.preimage mem
      exact ⟨old, List.mem_cons_of_mem _ listed, found⟩
    fresh := fun mem free => later.fresh (inRest mem free) free
    distinct := fun mem mem' free free' =>
      later.distinct (inRest mem free) (inRest mem' free') free free' }

theorem KeptApart.rename (mem : symbol.name ∈ captured) (free : before.get? symbol = none)
    (fresh : new.name ∉ taken) (bound : before.bind? symbol (.atom new) = some middle)
    (later : KeptApart captured rest middle (new.name :: taken) quantified after) :
    KeptApart captured (symbol :: rest) before taken (new :: quantified) after := by
  have value : (Expr.atom symbol).substitute after = .atom new := by
    have found : after.get? symbol = some (.atom new) := by
      apply later.kept
      rw [Bindings.get?_of_bind? bound, if_pos rfl]
    rw [Expr.substitute, found]
    rfl
  have elsewhere : ∀ {other}, symbol ≠ other → middle.get? other = before.get? other := by
    intro other different
    rw [Bindings.get?_of_bind? bound, if_neg different]
  have inRest : ∀ {other}, other ∈ symbol :: rest → symbol ≠ other → other ∈ rest := by
    intro other mem different
    exact (List.mem_cons.1 mem).resolve_left (Ne.symm different)
  -- A symbol found under the new name has that name itself, or else a name that is free after it.
  have apart : ∀ {other}, other ∈ symbol :: rest → symbol ≠ other → before.get? other = none →
      other.name ∈ taken → (Expr.atom other).substitute after ≠ .atom new := by
    intro other mem different unbound used same
    have unbound' := (elsewhere different).trans unbound
    rcases later.fresh (inRest mem different) unbound' same with rfl | untaken
    · exact fresh used
    · exact untaken List.mem_cons_self
  exact {
    quantified_eq := later.quantified_eq.trans (Bindings.bind?_eq_some_iff.1 bound).2.1
    kept := by
      intro other value has
      have different : symbol ≠ other := by
        rintro rfl
        rw [free] at has
        cases has
      exact later.kept ((elsewhere different).trans has)
    untouched := by
      intro other apart
      have different : symbol ≠ other := by
        rintro rfl
        exact apart mem
      exact (later.untouched apart).trans (elsewhere different)
    origin := by
      intro found listed
      rcases List.mem_cons.1 listed with rfl | listed
      · exact .inr fresh
      · rcases later.origin listed with ⟨inRest, apart⟩ | untaken
        · exact .inl ⟨List.mem_cons_of_mem _ inRest, apart⟩
        · exact .inr fun used => untaken (List.mem_cons_of_mem _ used)
    image := by
      intro other listed unbound
      by_cases same : symbol = other
      · exact ⟨new, List.mem_cons_self, same ▸ value⟩
      · obtain ⟨found, mem, substituted⟩ :=
          later.image (inRest listed same) ((elsewhere same).trans unbound)
        exact ⟨found, List.mem_cons_of_mem _ mem, substituted⟩
    preimage := by
      intro found listed
      rcases List.mem_cons.1 listed with rfl | listed
      · exact ⟨symbol, List.mem_cons_self, free, value⟩
      · obtain ⟨old, mem, unbound, substituted⟩ := later.preimage listed
        have different : symbol ≠ old := by
          rintro rfl
          rw [Bindings.get?_of_bind? bound, if_pos rfl] at unbound
          cases unbound
        exact ⟨old, List.mem_cons_of_mem _ mem, (elsewhere different).symm.trans unbound,
          substituted⟩
    fresh := by
      intro other found listed unbound substituted
      by_cases same : symbol = other
      · cases value.symm.trans (same ▸ substituted)
        exact .inr fresh
      · rcases later.fresh (inRest listed same) ((elsewhere same).trans unbound) substituted with
          itself | untaken
        · exact .inl itself
        · exact .inr fun used => untaken (List.mem_cons_of_mem _ used)
    distinct := by
      intro one other listed listed' unbound unbound' used used' substituted
      by_cases first : symbol = one
      · by_cases second : symbol = other
        · exact first.symm.trans second
        · exact (apart listed' second unbound' used' (substituted.symm.trans (first ▸ value))).elim
      · by_cases second : symbol = other
        · exact (apart listed first unbound used (substituted.trans (second ▸ value))).elim
        · exact later.distinct (inRest listed first) (inRest listed' second)
            ((elsewhere first).trans unbound) ((elsewhere second).trans unbound')
            (List.mem_cons_of_mem _ used) (List.mem_cons_of_mem _ used') substituted }

theorem KeptApart.keep (apart : symbol.name ∉ captured) (free : before.get? symbol = none)
    (later : KeptApart captured rest before taken quantified after) :
    KeptApart captured (symbol :: rest) before taken (symbol :: quantified) after := by
  have value : (Expr.atom symbol).substitute after = .atom symbol := by
    rw [Expr.substitute, (later.untouched apart).trans free]
    rfl
  -- A symbol found under the name of this one has that name itself.
  have alone : ∀ {other}, other ∈ rest → before.get? other = none → symbol.name ∈ taken →
      (Expr.atom other).substitute after = .atom symbol → symbol = other := by
    intro other mem unbound used same
    exact (later.fresh mem unbound same).resolve_right fun untaken => untaken used
  exact {
    quantified_eq := later.quantified_eq
    kept := later.kept
    untouched := later.untouched
    origin := by
      intro found listed
      rcases List.mem_cons.1 listed with rfl | listed
      · exact .inl ⟨List.mem_cons_self, apart⟩
      · rcases later.origin listed with ⟨inRest, apart⟩ | untaken
        · exact .inl ⟨List.mem_cons_of_mem _ inRest, apart⟩
        · exact .inr untaken
    image := by
      intro other listed unbound
      rcases List.mem_cons.1 listed with rfl | inRest
      · exact ⟨other, List.mem_cons_self, value⟩
      · obtain ⟨found, mem, substituted⟩ := later.image inRest unbound
        exact ⟨found, List.mem_cons_of_mem _ mem, substituted⟩
    preimage := by
      intro found listed
      rcases List.mem_cons.1 listed with rfl | listed
      · exact ⟨found, List.mem_cons_self, free, value⟩
      · obtain ⟨old, mem, substituted⟩ := later.preimage listed
        exact ⟨old, List.mem_cons_of_mem _ mem, substituted⟩
    fresh := by
      intro other found listed unbound substituted
      rcases List.mem_cons.1 listed with rfl | inRest
      · cases value.symm.trans substituted
        exact .inl rfl
      · exact later.fresh inRest unbound substituted
    distinct := by
      intro one other listed listed' unbound unbound' used used' substituted
      rcases List.mem_cons.1 listed with rfl | mem
      · rcases List.mem_cons.1 listed' with rfl | mem'
        · rfl
        · exact alone mem' unbound' used (substituted.symm.trans value)
      · rcases List.mem_cons.1 listed' with rfl | mem'
        · exact (alone mem unbound used' (substituted.trans value)).symm
        · exact later.distinct mem mem' unbound unbound' used used' substituted }

/-- If no symbol has a name that is captured, nothing is renamed, and the symbols without a value
stay quantified. -/
theorem keepApart_eq_of_not_captured {captured : List String} {symbols : List Symbol}
    (free : ∀ symbol ∈ symbols, symbol.name ∉ captured) (bindings : Bindings)
    (taken : List String) :
    keepApart captured symbols bindings taken =
      (symbols.filter fun symbol => !bindings.isBound symbol, bindings) := by
  induction symbols with
  | nil => rfl
  | cons symbol rest ih =>
      have later := ih fun other mem => free other (List.mem_cons_of_mem symbol mem)
      rw [keepApart, List.filter_cons]
      cases bound : bindings.isBound symbol with
      | true => exact later
      | false =>
          rw [if_neg Bool.false_ne_true, if_neg (free symbol List.mem_cons_self), later]
          rfl

/-- Quantified symbols are kept apart as `KeptApart` says. -/
theorem keepApart_spec (captured : List String) (symbols : List Symbol) (before : Bindings)
    (taken : List String) (listed : ∀ symbol ∈ symbols, symbol ∈ before.quantified) :
    KeptApart captured symbols before taken (keepApart captured symbols before taken).1
      (keepApart captured symbols before taken).2 := by
  induction symbols generalizing before taken with
  | nil => exact ⟨rfl, id, fun _ => rfl, nofun, nofun, nofun, nofun, nofun⟩
  | cons symbol rest ih =>
      have restListed := fun other mem => listed other (List.mem_cons_of_mem symbol mem)
      cases value : before.get? symbol with
      | some found =>
          have bound : before.isBound symbol = true := by rw [Bindings.isBound, value]; rfl
          rw [keepApart, if_pos bound]
          exact .skip value (ih before taken restListed)
      | none =>
          have unbound : ¬ before.isBound symbol = true := by
            rw [Bindings.isBound, value]
            exact Bool.false_ne_true
          rw [keepApart, if_neg unbound]
          by_cases mem : symbol.name ∈ captured
          · rw [if_pos mem]
            have quantified := listed symbol List.mem_cons_self
            obtain ⟨middle, bound⟩ := Bindings.exists_bind?
              (.atom { name := freshName symbol.name taken }) quantified value
            have stillListed : ∀ other ∈ rest, other ∈ middle.quantified := by
              rw [(Bindings.bind?_eq_some_iff.1 bound).2.1]
              exact restListed
            simp only [Symbol.fresh, bound, Option.getD_some]
            exact .rename mem value (freshName_not_mem _ taken) bound (ih middle _ stillListed)
          · rw [if_neg mem]
            exact .keep mem value (ih before taken restListed)

end Rule

end Calculation
