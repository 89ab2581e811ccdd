import Mathlib.Data.Option.Basic
import Calculation.Data.Source
import Calculation.Data.Statement

/-!
What is written as data can be read back, and is the same.

The written form of a value holds those of its parts, so it can be read back if they can
(`Data.RoundTrips`).  Data need not be in this form to be read: the parts may come in another order,
by position or with others between them.  What is read from such data is written in the one form,
and that is read as the same.  Only the ends of regions have a bound, which what is read keeps to.

* `Data.RoundTrips.list`, `Data.RoundTrips.alternatives`: lists, and names of alternatives.
* `Source.Tree.roundTrips`: trees, by induction on the tree and on the data.
* `values_roundTrip`: all values that can be written.
-/

namespace Calculation

namespace Data

/-! ## Written forms -/

variable {α : Type} {write : α → Data} {read? : Data → Option α} {valid : α → Prop} {data : Data}
  {name : String} {position : Nat} {value : α}

/-- A written value is read as what it was.  What is read, from any data, can be written and is then
read as the same again. -/
structure RoundTrips (write : α → Data) (read? : Data → Option α) (valid : α → Prop) : Prop where
  back : ∀ value, valid value → read? (write value) = some value
  accepted : ∀ data value, read? data = some value → valid value
  again : ∀ data value, read? data = some value → read? (write value) = some value :=
    fun data value read => back value (accepted data value read)

/-- A list of values that all have a property. -/
def All (valid : α → Prop) (values : List α) : Prop := ∀ value ∈ values, valid value

theorem guard_bind_eq_some_iff {condition : Prop} [Decidable condition] {next : Option α} :
    ((guard condition : Option Unit) >>= fun _ => next) = some value ↔
      condition ∧ next = some value := by
  rw [Option.bind_eq_bind, Option.bind_eq_some_iff]
  simp [Option.guard_eq_some']

/-- A part of a record is read by its name. -/
theorem read?_record (fields : List (String × Data)) (position : Nat) (name : String)
    (read? : Data → Option α) :
    (Data.record fields).read? position name read? = (fields.lookup name).bind read? := rfl

namespace RoundTrips

/-- What is read as a part can be written. -/
theorem accepted_part (trips : RoundTrips write read? valid)
    (read : data.read? position name read? = some value) : valid value := by
  obtain ⟨part, -, read⟩ := Option.bind_eq_some_iff.1 read
  exact trips.accepted part value read

theorem natural : RoundTrips Data.ofNat natural? (· < Text.numeralBound) where
  back value bound := if_pos bound
  accepted data value read := by
    unfold natural? at read
    split at read
    · split at read
      · rename_i bound
        cases read
        exact bound
      · cases read
    · cases read

/-- Lists are read back item by item. -/
theorem list (item : RoundTrips write read? valid) :
    RoundTrips (ofList write) (list? read?) (All valid) where
  back values all := by
    rw [ofList, list?]
    induction values with
    | nil => rfl
    | cons value rest ih =>
        have rest := ih fun other mem => all other (List.mem_cons_of_mem _ mem)
        have first := item.back value (all value (List.mem_cons_self ..))
        rw [List.map_cons, List.mapM_cons, first, rest]
        rfl
  accepted data values read := by
    cases data with
    | list items =>
        rw [list?] at read
        induction items generalizing values with
        | nil =>
            cases read
            exact nofun
        | cons data items ih =>
            rw [List.mapM_cons] at read
            obtain ⟨first, here, read⟩ := Option.bind_eq_some_iff.1 read
            obtain ⟨rest, later, same⟩ := Option.bind_eq_some_iff.1 read
            cases same
            intro value mem
            rcases List.mem_cons.1 mem with rfl | mem
            · exact item.accepted data value here
            · exact ih rest later value mem
    | _ => cases read

/-- Alternatives are read back if no two of them have the same name. -/
theorem alternatives (nameOf : α → String) (all : List α)
    (named : ∀ value, all.find? (nameOf · = nameOf value) = some value) :
    RoundTrips (fun value => .text (nameOf value))
      (fun data => data.alternative?.bind fun name => all.find? (nameOf · = name))
      fun _ => True where
  back value _ := named value
  accepted _ _ _ := trivial

end RoundTrips

end Data

open Data

/-! ## Expressions, relations and rules -/

theorem Symbol.roundTrips : RoundTrips Symbol.toData Symbol.ofData? fun _ => True where
  back symbol _ := by
    obtain ⟨name, reversed, negated, reversedNegated⟩ := symbol
    cases reversed <;> cases negated <;> cases reversedNegated <;> rfl
  accepted _ _ _ := trivial

theorem Expr.roundTrips : RoundTrips Expr.toData Expr.ofData? fun _ => True where
  back expr _ := by
    have symbol : ∀ symbol, Symbol.ofData? symbol.toData = some symbol :=
      fun symbol => Symbol.roundTrips.back symbol trivial
    induction expr with
    | atom leaf => rw [toData, ofData?, symbol, Option.map_some]
    | unary operator operand ih => simp [toData, ofData?, symbol, ih]
    | binary operator lhs rhs ihl ihr => simp [toData, ofData?, symbol, ihl, ihr]
  accepted _ _ _ := trivial

theorem Relation.roundTrips : RoundTrips Relation.toData Relation.ofData? fun _ => True where
  back relation _ := by
    rw [toData, ofData?]
    simp [hasParts, guard, read?_record, List.lookup_cons, Symbol.roundTrips.back,
      Expr.roundTrips.back, boolean?]
  accepted _ _ _ := trivial

theorem Link.roundTrips : RoundTrips Link.toData Link.ofData? fun _ => True where
  back link _ := by
    rw [toData, ofData?]
    simp [hasParts, guard, read?_record, List.lookup_cons, Symbol.roundTrips.back,
      Expr.roundTrips.back, boolean?]
  accepted _ _ _ := trivial

theorem Rule.roundTrips : RoundTrips Rule.toData Rule.ofData? fun _ => True where
  back rule _ := by
    have quantified := Symbol.roundTrips.list.back rule.quantified fun _ _ => trivial
    have disjuncts := Relation.roundTrips.list.back rule.disjuncts fun _ _ => trivial
    rw [toData, ofData?]
    simp [hasParts, guard, read?_record, List.lookup_cons, text?, quantified, disjuncts]
  accepted _ _ _ := trivial

theorem Theory.roundTrips : RoundTrips Theory.toData Theory.ofData? fun _ => True where
  back theory _ := by
    have rules := Rule.roundTrips.list.back theory.rules fun _ _ => trivial
    rw [toData, ofData?]
    simp [hasParts, guard, read?_record, rules]
  accepted _ _ _ := trivial

theorem Direction.roundTrips : RoundTrips Direction.toData Direction.ofData? fun _ => True :=
  .alternatives name [forward, backward] fun direction => by cases direction <;> decide

/-! ## Trees, comparisons and declarations -/

/-- The ends of the region are counts that can be written. -/
def Span.Bounded (span : Span) : Prop :=
  span.start < Text.numeralBound ∧ span.stop < Text.numeralBound

theorem Span.roundTrips : RoundTrips Span.toData Span.ofData? Bounded where
  back span bounded := by
    have start := RoundTrips.natural.back span.start bounded.1
    have stop := RoundTrips.natural.back span.stop bounded.2
    rw [toData, ofData?]
    simp [hasParts, guard, read?_record, List.lookup_cons, isEnd, start, stop]
  accepted data span read := by
    rw [ofData?, guard_bind_eq_some_iff] at read
    have ends : (data.read? 0 "start" natural? >>= fun start =>
        data.read? 1 "end" natural? >>= fun stop => some (⟨start, stop⟩ : Span)) = some span := by
      -- only a record can hold more than the ends
      cases data with
      | record fields => exact (guard_bind_eq_some_iff.1 read.2).2
      | _ => exact read.2
    obtain ⟨start, first, ends⟩ := Option.bind_eq_some_iff.1 ends
    obtain ⟨stop, last, same⟩ := Option.bind_eq_some_iff.1 ends
    cases same
    exact ⟨RoundTrips.natural.accepted_part first, RoundTrips.natural.accepted_part last⟩

namespace Source

def Atom.Bounded (atom : Atom) : Prop := atom.span.Bounded

def Placed.Bounded {Operator : Type} (placed : Placed Operator) : Prop := placed.span.Bounded

def Tree.Bounded : Tree → Prop
  | .atom leaf => leaf.Bounded
  | .paren inner span => inner.Bounded ∧ span.Bounded
  | .unary operator operand span => operator.Bounded ∧ operand.Bounded ∧ span.Bounded
  | .binary lhs operator rhs span =>
    lhs.Bounded ∧ operator.Bounded ∧ rhs.Bounded ∧ span.Bounded

structure Comparison.Bounded (comparison : Comparison) : Prop where
  lhs : comparison.lhs.Bounded
  operator : comparison.operator.Bounded
  rhs : comparison.rhs.Bounded
  span : comparison.span.Bounded

structure Declaration.Bounded (rule : Declaration) : Prop where
  name : rule.name.Bounded
  quantified : All Atom.Bounded rule.quantified
  corollary : rule.corollary.Bounded
  conditions : All Comparison.Bounded rule.conditions
  span : rule.span.Bounded

theorem UnaryOperator.roundTrips :
    RoundTrips (fun operator => .text operator.name) UnaryOperator.ofData? fun _ => True :=
  .alternatives name [minus] fun operator => by
    cases operator
    decide

theorem BinaryOperator.roundTrips :
    RoundTrips (fun operator => .text operator.name) BinaryOperator.ofData? fun _ => True :=
  .alternatives name [times, dividedBy, plus, minus] fun operator => by cases operator <;> decide

theorem RelationalOperator.roundTrips :
    RoundTrips (fun operator => .text operator.name) RelationalOperator.ofData? fun _ => True :=
  .alternatives name [equal, notEqual, less, greater, atMost, atLeast]
    fun operator => by cases operator <;> decide

theorem Placed.roundTrips {Operator : Type} {name : Operator → String}
    {readKind : Data → Option Operator}
    (kinds : RoundTrips (fun operator => .text (name operator)) readKind fun _ => True) :
    RoundTrips (Placed.toData name) (Placed.ofData? readKind) Placed.Bounded where
  back placed bounded := by
    have kind := kinds.back placed.kind trivial
    have span := Span.roundTrips.back placed.span bounded
    rw [toData, ofData?]
    simp [hasParts, guard, read?_record, List.lookup_cons, kind, span]
  accepted data placed read := by
    rw [ofData?, guard_bind_eq_some_iff] at read
    obtain ⟨-, read⟩ := read
    obtain ⟨kind, -, read⟩ := Option.bind_eq_some_iff.1 read
    obtain ⟨span, here, same⟩ := Option.bind_eq_some_iff.1 read
    cases same
    exact Span.roundTrips.accepted_part here

theorem Atom.roundTrips : RoundTrips Atom.toData Atom.ofData? Atom.Bounded where
  back atom bounded := by
    have span := Span.roundTrips.back atom.span bounded
    rw [toData, ofData?]
    simp [hasParts, guard, read?_record, List.lookup_cons, text?, span]
  accepted data atom read := by
    rw [ofData?, guard_bind_eq_some_iff] at read
    obtain ⟨-, read⟩ := read
    obtain ⟨name, -, read⟩ := Option.bind_eq_some_iff.1 read
    obtain ⟨span, here, same⟩ := Option.bind_eq_some_iff.1 read
    cases same
    exact Span.roundTrips.accepted_part here

theorem Tree.roundTrips : RoundTrips Tree.toData Tree.ofData? Tree.Bounded where
  back tree bounded := by
    induction tree with
    | atom leaf => rw [toData, ofData?, Atom.roundTrips.back leaf bounded, Option.map_some]
    | paren inner span ih =>
        have inner := ih bounded.1
        have span := Span.roundTrips.back span bounded.2
        rw [toData, ofData?]
        simp [hasParts, read?_record, part?, List.lookup_cons, inner, span]
    | unary operator operand span ih =>
        have operator := (Placed.roundTrips UnaryOperator.roundTrips).back operator bounded.1
        have operand := ih bounded.2.1
        have span := Span.roundTrips.back span bounded.2.2
        rw [toData, ofData?]
        simp [hasParts, read?_record, part?, List.lookup_cons, operator, operand, span]
    | binary lhs operator rhs span ihl ihr =>
        have lhs := ihl bounded.1
        have operator := (Placed.roundTrips BinaryOperator.roundTrips).back operator bounded.2.1
        have rhs := ihr bounded.2.2.1
        have span := Span.roundTrips.back span bounded.2.2.2
        rw [toData, ofData?]
        simp [hasParts, read?_record, part?, List.lookup_cons, lhs, operator, rhs, span]
  accepted data tree read := by
    fun_induction Tree.ofData? data generalizing tree with
    | case1 content =>
        obtain ⟨leaf, here, rfl⟩ := Option.map_eq_some_iff.1 read
        exact Atom.roundTrips.accepted content leaf here
    | case2 content _ ih =>
        obtain ⟨⟨part, found⟩, -, read⟩ := Option.bind_eq_some_iff.1 read
        obtain ⟨span, region, read⟩ := Option.bind_eq_some_iff.1 read
        obtain ⟨inner, here, same⟩ := Option.bind_eq_some_iff.1 read
        cases same
        exact ⟨ih part found inner here, Span.roundTrips.accepted_part region⟩
    | case4 content _ ih =>
        obtain ⟨operator, sign, read⟩ := Option.bind_eq_some_iff.1 read
        obtain ⟨⟨part, found⟩, -, read⟩ := Option.bind_eq_some_iff.1 read
        obtain ⟨span, region, read⟩ := Option.bind_eq_some_iff.1 read
        obtain ⟨operand, here, same⟩ := Option.bind_eq_some_iff.1 read
        cases same
        exact ⟨(Placed.roundTrips UnaryOperator.roundTrips).accepted_part sign,
          ih part found operand here, Span.roundTrips.accepted_part region⟩
    | case6 content _ ihl ihr =>
        obtain ⟨⟨left, foundLeft⟩, -, read⟩ := Option.bind_eq_some_iff.1 read
        obtain ⟨operator, sign, read⟩ := Option.bind_eq_some_iff.1 read
        obtain ⟨⟨right, foundRight⟩, -, read⟩ := Option.bind_eq_some_iff.1 read
        obtain ⟨span, region, read⟩ := Option.bind_eq_some_iff.1 read
        obtain ⟨lhs, readLeft, read⟩ := Option.bind_eq_some_iff.1 read
        obtain ⟨rhs, readRight, same⟩ := Option.bind_eq_some_iff.1 read
        cases same
        exact ⟨ihl left foundLeft lhs readLeft,
          (Placed.roundTrips BinaryOperator.roundTrips).accepted_part sign,
          ihr right foundRight rhs readRight, Span.roundTrips.accepted_part region⟩
    | case3 => cases read
    | case5 => cases read
    | case7 => cases read
    | case8 => cases read

theorem Comparison.roundTrips :
    RoundTrips Comparison.toData Comparison.ofData? Comparison.Bounded where
  back comparison bounded := by
    have lhs := Tree.roundTrips.back comparison.lhs bounded.lhs
    have operator := (Placed.roundTrips RelationalOperator.roundTrips).back comparison.operator
      bounded.operator
    have rhs := Tree.roundTrips.back comparison.rhs bounded.rhs
    have span := Span.roundTrips.back comparison.span bounded.span
    rw [toData, ofData?]
    simp [hasParts, guard, read?_record, List.lookup_cons, lhs, operator, rhs, span]
  accepted data comparison read := by
    rw [ofData?, guard_bind_eq_some_iff] at read
    obtain ⟨-, read⟩ := read
    obtain ⟨lhs, left, read⟩ := Option.bind_eq_some_iff.1 read
    obtain ⟨operator, sign, read⟩ := Option.bind_eq_some_iff.1 read
    obtain ⟨rhs, right, read⟩ := Option.bind_eq_some_iff.1 read
    obtain ⟨span, region, same⟩ := Option.bind_eq_some_iff.1 read
    cases same
    constructor
    case lhs => exact Tree.roundTrips.accepted_part left
    case operator => exact (Placed.roundTrips RelationalOperator.roundTrips).accepted_part sign
    case rhs => exact Tree.roundTrips.accepted_part right
    case span => exact Span.roundTrips.accepted_part region

theorem Declaration.roundTrips :
    RoundTrips Declaration.toData Declaration.ofData? Declaration.Bounded where
  back rule bounded := by
    have name := Atom.roundTrips.back rule.name bounded.name
    have quantified := Atom.roundTrips.list.back rule.quantified bounded.quantified
    have corollary := Comparison.roundTrips.back rule.corollary bounded.corollary
    have conditions := Comparison.roundTrips.list.back rule.conditions bounded.conditions
    have span := Span.roundTrips.back rule.span bounded.span
    rw [toData, ofData?]
    simp [hasParts, guard, read?_record, List.lookup_cons, name, quantified, corollary, conditions,
      span]
  accepted data rule read := by
    rw [ofData?, guard_bind_eq_some_iff] at read
    obtain ⟨-, read⟩ := read
    obtain ⟨name, called, read⟩ := Option.bind_eq_some_iff.1 read
    obtain ⟨quantified, listed, read⟩ := Option.bind_eq_some_iff.1 read
    obtain ⟨corollary, asserted, read⟩ := Option.bind_eq_some_iff.1 read
    obtain ⟨conditions, needed, read⟩ := Option.bind_eq_some_iff.1 read
    obtain ⟨span, region, same⟩ := Option.bind_eq_some_iff.1 read
    cases same
    constructor
    case name => exact Atom.roundTrips.accepted_part called
    case quantified => exact Atom.roundTrips.list.accepted_part listed
    case corollary => exact Comparison.roundTrips.accepted_part asserted
    case conditions => exact Comparison.roundTrips.list.accepted_part needed
    case span => exact Span.roundTrips.accepted_part region

end Source

/-- Whatever can be written as data is read back, and what is read is written and read again as the
same: symbols, expressions, relations, links, rules, theories and directions without a condition,
and what was read from a source with ends of regions that are counts of 64 bits. -/
theorem values_roundTrip :
    RoundTrips Symbol.toData Symbol.ofData? (fun _ => True) ∧
      RoundTrips Expr.toData Expr.ofData? (fun _ => True) ∧
      RoundTrips Relation.toData Relation.ofData? (fun _ => True) ∧
      RoundTrips Link.toData Link.ofData? (fun _ => True) ∧
      RoundTrips Rule.toData Rule.ofData? (fun _ => True) ∧
      RoundTrips Theory.toData Theory.ofData? (fun _ => True) ∧
      RoundTrips Direction.toData Direction.ofData? (fun _ => True) ∧
      RoundTrips Source.Tree.toData Source.Tree.ofData? Source.Tree.Bounded ∧
      RoundTrips Source.Comparison.toData Source.Comparison.ofData? Source.Comparison.Bounded ∧
      RoundTrips Source.Declaration.toData Source.Declaration.ofData? Source.Declaration.Bounded :=
  ⟨Symbol.roundTrips, Expr.roundTrips, Relation.roundTrips, Link.roundTrips, Rule.roundTrips,
    Theory.roundTrips, Direction.roundTrips, Source.Tree.roundTrips, Source.Comparison.roundTrips,
    Source.Declaration.roundTrips⟩

end Calculation
