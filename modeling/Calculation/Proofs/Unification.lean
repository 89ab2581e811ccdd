import Mathlib.Data.List.Nodup
import Calculation.Proofs.Matching
import Calculation.Proofs.Way

/-!
When a pattern matches an expression, and what is bound then.

Matching goes from left to right and binds as it goes.  What it comes to can be said without any
order, by the ways that lead down through both expressions (`Expr.Faces`): the pattern has to fit,
and an atom that faces anything but itself must be quantified, unbound, and the only one of its
symbol to do so (`Expr.Agrees`).

* `Expr.fits_iff`, `Expr.nodup_demands_iff`: the two conditions, one way at a time.
* `Expr.matches?_grows`: whether it succeeds or not, a match only adds parts of the expression.
* `Expr.unify_eq_some_iff_agrees`: all that a match does, whatever is bound before.
-/

namespace Calculation

namespace Bindings

/-- Symbols can be bound one after the other if each is quantified and has no value, and none comes
twice. -/
theorem exists_bindAll?_iff {entries : List (Symbol × Expr)} {bindings : Bindings} :
    (∃ extended, bindAll? entries bindings = some extended) ↔
      (entries.map Prod.fst).Nodup ∧ ∀ entry ∈ entries,
        entry.1 ∈ bindings.quantified ∧ bindings.get? entry.1 = none := by
  induction entries generalizing bindings with
  | nil => simp [bindAll?]
  | cons entry rest ih =>
      obtain ⟨symbol, value⟩ := entry
      rw [List.map_cons, List.nodup_cons, List.forall_mem_cons]
      constructor
      · intro bound
        obtain ⟨extended, bound⟩ := bound
        obtain ⟨middle, first, others⟩ := Option.bind_eq_some_iff.1 bound
        obtain ⟨able, quantified, -⟩ := bind?_eq_some_iff.1 first
        obtain ⟨nodup, free⟩ := ih.1 ⟨extended, others⟩
        have later : ∀ entry ∈ rest, symbol ≠ entry.1 ∧
            entry.1 ∈ bindings.quantified ∧ bindings.get? entry.1 = none := by
          intro entry mem
          obtain ⟨listed, unbound⟩ := free entry mem
          rw [get?_of_bind? first] at unbound
          split at unbound
          · cases unbound
          · rename_i different
            exact ⟨different, quantified ▸ listed, unbound⟩
        refine ⟨⟨fun mem => ?_, nodup⟩, able, fun entry mem => (later entry mem).2⟩
        obtain ⟨entry, mem, same⟩ := List.mem_map.1 mem
        exact (later entry mem).1 same.symm
      · intro conditions
        obtain ⟨⟨absent, nodup⟩, ⟨listed, free⟩, later⟩ := conditions
        obtain ⟨middle, first⟩ := exists_bind? value listed free
        obtain ⟨-, quantified, -⟩ := bind?_eq_some_iff.1 first
        have stillFree : ∀ entry ∈ rest,
            entry.1 ∈ middle.quantified ∧ middle.get? entry.1 = none := by
          intro entry mem
          have different : symbol ≠ entry.1 := fun same =>
            absent (List.mem_map.2 ⟨entry, mem, same.symm⟩)
          rw [quantified, get?_of_bind? first, if_neg different]
          exact later entry mem
        obtain ⟨extended, others⟩ := ih.2 ⟨nodup, stillFree⟩
        exact ⟨extended, Option.bind_eq_some_iff.2 ⟨middle, first, others⟩⟩

end Bindings

namespace Expr

/-! ## One way at a time -/

/-- The way leads to an atom in the pattern, and to the part that it faces in the expression. -/
def Faces (pattern ground : Expr) (way : Way) (symbol : Symbol) (part : Expr) : Prop :=
  pattern.part? way = some (.atom symbol) ∧ ground.part? way = some part

/-- The pattern matches the expression, given what is bound already. -/
structure Agrees (pattern ground : Expr) (bindings : Bindings) : Prop where
  /-- Where the pattern has an operation, the expression has one with the same operator and as many
  operands. -/
  operations : ∀ way operation, pattern.part? way = some operation → operation.operands ≠ [] →
    ∃ part, ground.part? way = some part ∧ part.symbol = operation.symbol ∧
      part.operands.length = operation.operands.length
  /-- An atom faces itself, or else it is quantified and unbound, and no other atom of its symbol
  faces anything but itself. -/
  atoms : ∀ way symbol, pattern.part? way = some (.atom symbol) →
    ∃ part, ground.part? way = some part ∧ (part = .atom symbol ∨
      symbol ∈ bindings.quantified ∧ bindings.get? symbol = none ∧
        ∀ other otherPart, pattern.Faces ground other symbol otherPart →
          otherPart ≠ .atom symbol → other = way)

variable {pattern ground : Expr} {symbol : Symbol} {part : Expr} {way : Way}

/-- A pattern fits if wherever it leads the expression does, and has the same operator there. -/
theorem fits_iff : pattern.Fits ground ↔
    ∀ way part, pattern.part? way = some part → ∃ faced, ground.part? way = some faced ∧
      (part.operands ≠ [] →
        faced.symbol = part.symbol ∧ faced.operands.length = part.operands.length) := by
  constructor
  · intro fits way part leads
    induction pattern generalizing ground way with
    | atom symbol =>
        obtain ⟨rfl, rfl⟩ := part?_atom_eq_some_iff.1 leads
        exact ⟨ground, rfl, fun operation => (operation rfl).elim⟩
    | unary operator operand ih =>
        cases ground with
        | unary groundOperator groundOperand =>
            obtain ⟨rfl, fits⟩ := fits
            rcases part?_unary_eq_some_iff.1 leads with ⟨rfl, rfl⟩ | ⟨later, rfl, leads⟩
            · exact ⟨_, rfl, fun _ => ⟨rfl, rfl⟩⟩
            · exact ih fits later leads
        | _ => exact fits.elim
    | binary operator lhs rhs ihl ihr =>
        cases ground with
        | binary groundOperator groundLhs groundRhs =>
            obtain ⟨rfl, fitsLeft, fitsRight⟩ := fits
            rcases part?_binary_eq_some_iff.1 leads with
              ⟨rfl, rfl⟩ | ⟨later, rfl, leads⟩ | ⟨later, rfl, leads⟩
            · exact ⟨_, rfl, fun _ => ⟨rfl, rfl⟩⟩
            · exact ihl fitsLeft later leads
            · exact ihr fitsRight later leads
        | _ => exact fits.elim
  · intro agrees
    -- the empty way compares the roots, and longer ones the operands
    induction pattern generalizing ground with
    | atom symbol => trivial
    | unary operator operand ih =>
        obtain ⟨faced, same, root⟩ := agrees [] _ rfl
        cases same
        obtain ⟨sign, arity⟩ := root (List.cons_ne_nil _ _)
        cases ground with
        | unary groundOperator groundOperand =>
            exact ⟨sign.symm, ih fun way part leads => agrees (.left :: way) part leads⟩
        | _ => cases arity
    | binary operator lhs rhs ihl ihr =>
        obtain ⟨faced, same, root⟩ := agrees [] _ rfl
        cases same
        obtain ⟨sign, arity⟩ := root (List.cons_ne_nil _ _)
        cases ground with
        | binary groundOperator groundLhs groundRhs =>
            exact ⟨sign.symm, ihl fun way part leads => agrees (.left :: way) part leads,
              ihr fun way part leads => agrees (.right :: way) part leads⟩
        | _ => cases arity

theorem faces_atom_iff {own : Symbol} :
    (atom own).Faces ground way symbol part ↔ way = [] ∧ symbol = own ∧ part = ground := by
  rw [Faces, part?_atom_eq_some_iff]
  constructor
  · intro faces
    obtain ⟨⟨rfl, same⟩, faced⟩ := faces
    cases same
    cases faced
    exact ⟨rfl, rfl, rfl⟩
  · intro faces
    obtain ⟨rfl, rfl, rfl⟩ := faces
    exact ⟨⟨rfl, rfl⟩, rfl⟩

theorem faces_unary_iff {operator groundOperator : Symbol} {operand groundOperand : Expr} :
    (unary operator operand).Faces (unary groundOperator groundOperand) way symbol part ↔
      ∃ later, way = .left :: later ∧ operand.Faces groundOperand later symbol part := by
  constructor
  · intro faces
    obtain ⟨leads, faced⟩ := faces
    rcases part?_unary_eq_some_iff.1 leads with ⟨-, other⟩ | ⟨later, rfl, leads⟩
    · cases other
    · exact ⟨later, rfl, leads, faced⟩
  · intro faces
    obtain ⟨later, rfl, faces⟩ := faces
    exact faces

theorem faces_binary_iff {operator groundOperator : Symbol} {lhs rhs groundLhs groundRhs : Expr} :
    (binary operator lhs rhs).Faces (binary groundOperator groundLhs groundRhs) way symbol part ↔
      (∃ later, way = .left :: later ∧ lhs.Faces groundLhs later symbol part) ∨
        ∃ later, way = .right :: later ∧ rhs.Faces groundRhs later symbol part := by
  constructor
  · intro faces
    obtain ⟨leads, faced⟩ := faces
    rcases part?_binary_eq_some_iff.1 leads with
      ⟨-, other⟩ | ⟨later, rfl, leads⟩ | ⟨later, rfl, leads⟩
    · cases other
    · exact .inl ⟨later, rfl, leads, faced⟩
    · exact .inr ⟨later, rfl, leads, faced⟩
  · intro faces
    rcases faces with ⟨later, rfl, faces⟩ | ⟨later, rfl, faces⟩
    · exact faces
    · exact faces

/-- The atoms of a pattern that fits face what is listed for them. -/
theorem mem_facing_iff (fits : pattern.Fits ground) :
    (symbol, part) ∈ pattern.facing ground ↔ ∃ way, pattern.Faces ground way symbol part := by
  induction pattern generalizing ground with
  | atom own => simp [facing, faces_atom_iff]
  | unary operator operand ih =>
      cases ground with
      | unary groundOperator groundOperand => simp [facing, faces_unary_iff, ih fits.2]
      | _ => exact fits.elim
  | binary operator lhs rhs ihl ihr =>
      cases ground with
      | binary groundOperator groundLhs groundRhs =>
          simp [facing, faces_binary_iff, ihl fits.2.1, ihr fits.2.2, exists_or]
      | _ => exact fits.elim

/-- The atom at the end of the way faces something else, which its symbol has to be bound to. -/
def Wants (pattern ground : Expr) (symbol : Symbol) (way : Way) : Prop :=
  ∃ part, pattern.Faces ground way symbol part ∧ part ≠ .atom symbol

theorem wants_unary_iff {operator groundOperator : Symbol} {operand groundOperand : Expr} :
    (unary operator operand).Wants (unary groundOperator groundOperand) symbol way ↔
      ∃ later, way = .left :: later ∧ operand.Wants groundOperand symbol later := by
  constructor
  · intro wanted
    obtain ⟨part, faces, other⟩ := wanted
    obtain ⟨later, rfl, faces⟩ := faces_unary_iff.1 faces
    exact ⟨later, rfl, part, faces, other⟩
  · intro wanted
    obtain ⟨later, rfl, part, faces, other⟩ := wanted
    exact ⟨part, faces_unary_iff.2 ⟨later, rfl, faces⟩, other⟩

theorem wants_binary_iff {operator groundOperator : Symbol} {lhs rhs groundLhs groundRhs : Expr} :
    (binary operator lhs rhs).Wants (binary groundOperator groundLhs groundRhs) symbol way ↔
      (∃ later, way = .left :: later ∧ lhs.Wants groundLhs symbol later) ∨
        ∃ later, way = .right :: later ∧ rhs.Wants groundRhs symbol later := by
  constructor
  · intro wanted
    obtain ⟨part, faces, other⟩ := wanted
    rcases faces_binary_iff.1 faces with ⟨later, rfl, faces⟩ | ⟨later, rfl, faces⟩
    · exact .inl ⟨later, rfl, part, faces, other⟩
    · exact .inr ⟨later, rfl, part, faces, other⟩
  · intro wanted
    rcases wanted with ⟨later, rfl, part, faces, other⟩ | ⟨later, rfl, part, faces, other⟩
    · exact ⟨part, faces_binary_iff.2 (.inl ⟨later, rfl, faces⟩), other⟩
    · exact ⟨part, faces_binary_iff.2 (.inr ⟨later, rfl, faces⟩), other⟩

theorem mem_map_demands_iff (fits : pattern.Fits ground) :
    symbol ∈ (pattern.demands ground).map Prod.fst ↔ ∃ way, pattern.Wants ground symbol way := by
  constructor
  · intro mem
    obtain ⟨⟨key, part⟩, demanded, rfl⟩ := List.mem_map.1 mem
    obtain ⟨faces, other⟩ := mem_demands_iff.1 demanded
    obtain ⟨way, faces⟩ := (mem_facing_iff fits).1 faces
    exact ⟨way, part, faces, other⟩
  · intro wanted
    obtain ⟨way, part, faces, other⟩ := wanted
    have demanded := mem_demands_iff.2 ⟨(mem_facing_iff fits).2 ⟨way, faces⟩, other⟩
    exact List.mem_map.2 ⟨(symbol, part), demanded, rfl⟩

/-- No symbol is demanded twice exactly if none is wanted at the end of two ways. -/
theorem nodup_demands_iff (fits : pattern.Fits ground) :
    ((pattern.demands ground).map Prod.fst).Nodup ↔ ∀ symbol way other,
      pattern.Wants ground symbol way → pattern.Wants ground symbol other → way = other := by
  induction pattern generalizing ground with
  | atom own =>
      have one : ((atom own).demands ground).length ≤ 1 := List.length_filter_le _ _
      refine iff_of_true ?_ fun symbol way other wanted wanted' => ?_
      · generalize (atom own).demands ground = demanded at one
        match demanded with
        | [] => exact List.nodup_nil
        | [entry] => exact List.nodup_singleton _
      · obtain ⟨part, faces, -⟩ := wanted
        obtain ⟨part', faces', -⟩ := wanted'
        exact (faces_atom_iff.1 faces).1.trans (faces_atom_iff.1 faces').1.symm
  | unary operator operand ih =>
      cases ground with
      | unary groundOperator groundOperand =>
          refine (ih fits.2).trans ⟨fun once symbol way other wanted wanted' => ?_,
            fun once symbol way other wanted wanted' => ?_⟩
          · obtain ⟨later, rfl, wanted⟩ := wants_unary_iff.1 wanted
            obtain ⟨later', rfl, wanted'⟩ := wants_unary_iff.1 wanted'
            rw [once symbol later later' wanted wanted']
          · have same := once symbol (.left :: way) (.left :: other)
              (wants_unary_iff.2 ⟨way, rfl, wanted⟩) (wants_unary_iff.2 ⟨other, rfl, wanted'⟩)
            exact (List.cons.inj same).2
      | _ => exact fits.elim
  | binary operator lhs rhs ihl ihr =>
      cases ground with
      | binary groundOperator groundLhs groundRhs =>
          obtain ⟨rfl, fitsLeft, fitsRight⟩ := fits
          rw [demands, facing, List.filter_append, List.map_append, List.nodup_append]
          refine ⟨fun conditions symbol way other wanted wanted' => ?_, fun once => ⟨?_, ?_, ?_⟩⟩
          · obtain ⟨left, right, apart⟩ := conditions
            have never : ∀ way way', lhs.Wants groundLhs symbol way →
                ¬ rhs.Wants groundRhs symbol way' := fun way way' inLeft inRight =>
              apart symbol ((mem_map_demands_iff fitsLeft).2 ⟨way, inLeft⟩) symbol
                ((mem_map_demands_iff fitsRight).2 ⟨way', inRight⟩) rfl
            rcases wants_binary_iff.1 wanted with ⟨later, rfl, wanted⟩ | ⟨later, rfl, wanted⟩
            · rcases wants_binary_iff.1 wanted' with ⟨later', rfl, wanted'⟩ | ⟨later', rfl, wanted'⟩
              · rw [(ihl fitsLeft).1 left symbol later later' wanted wanted']
              · exact (never later later' wanted wanted').elim
            · rcases wants_binary_iff.1 wanted' with ⟨later', rfl, wanted'⟩ | ⟨later', rfl, wanted'⟩
              · exact (never later' later wanted' wanted).elim
              · rw [(ihr fitsRight).1 right symbol later later' wanted wanted']
          · refine (ihl fitsLeft).2 fun symbol way other wanted wanted' => ?_
            have same := once symbol (.left :: way) (.left :: other)
              (wants_binary_iff.2 (.inl ⟨way, rfl, wanted⟩))
              (wants_binary_iff.2 (.inl ⟨other, rfl, wanted'⟩))
            exact (List.cons.inj same).2
          · refine (ihr fitsRight).2 fun symbol way other wanted wanted' => ?_
            have same := once symbol (.right :: way) (.right :: other)
              (wants_binary_iff.2 (.inr ⟨way, rfl, wanted⟩))
              (wants_binary_iff.2 (.inr ⟨other, rfl, wanted'⟩))
            exact (List.cons.inj same).2
          · intro symbol memLeft _ memRight same
            subst same
            obtain ⟨way, wanted⟩ := (mem_map_demands_iff fitsLeft).1 memLeft
            obtain ⟨other, wanted'⟩ := (mem_map_demands_iff fitsRight).1 memRight
            have same := once symbol (.left :: way) (.right :: other)
              (wants_binary_iff.2 (.inl ⟨way, rfl, wanted⟩))
              (wants_binary_iff.2 (.inr ⟨other, rfl, wanted'⟩))
            cases (List.cons.inj same).1
      | _ => exact fits.elim

/-- A pattern agrees with an expression if it fits and all that it demands can be bound. -/
theorem agrees_iff {bindings : Bindings} : pattern.Agrees ground bindings ↔
    pattern.Fits ground ∧ ((pattern.demands ground).map Prod.fst).Nodup ∧
      ∀ entry ∈ pattern.demands ground,
        entry.1 ∈ bindings.quantified ∧ bindings.get? entry.1 = none := by
  constructor
  · intro agrees
    have fits : pattern.Fits ground := by
      refine fits_iff.2 fun way part leads => ?_
      cases part with
      | atom symbol =>
          obtain ⟨faced, there, -⟩ := agrees.atoms way symbol leads
          exact ⟨faced, there, fun operation => (operation rfl).elim⟩
      | unary operator operand =>
          obtain ⟨faced, there, same⟩ := agrees.operations way _ leads (List.cons_ne_nil _ _)
          exact ⟨faced, there, fun _ => same⟩
      | binary operator lhs rhs =>
          obtain ⟨faced, there, same⟩ := agrees.operations way _ leads (List.cons_ne_nil _ _)
          exact ⟨faced, there, fun _ => same⟩
    have able : ∀ symbol way, pattern.Wants ground symbol way →
        symbol ∈ bindings.quantified ∧ bindings.get? symbol = none ∧
          ∀ other, pattern.Wants ground symbol other → other = way := by
      intro symbol way wanted
      obtain ⟨part, ⟨leads, there⟩, other⟩ := wanted
      obtain ⟨faced, there', rest⟩ := agrees.atoms way symbol leads
      cases Option.some.inj (there.symm.trans there')
      obtain ⟨listed, free, once⟩ := rest.resolve_left other
      exact ⟨listed, free, fun way' wanted' => by
        obtain ⟨part', faces', other'⟩ := wanted'
        exact once way' part' faces' other'⟩
    refine ⟨fits, (nodup_demands_iff fits).2 fun symbol way other wanted wanted' => ?_,
      fun entry mem => ?_⟩
    · exact (able symbol other wanted').2.2 way wanted
    · obtain ⟨way, wanted⟩ := (mem_map_demands_iff fits).1 (List.mem_map_of_mem mem)
      exact ⟨(able entry.1 way wanted).1, (able entry.1 way wanted).2.1⟩
  · intro conditions
    obtain ⟨fits, nodup, free⟩ := conditions
    refine ⟨fun way operation leads inner => ?_, fun way symbol leads => ?_⟩
    · obtain ⟨faced, there, same⟩ := fits_iff.1 fits way operation leads
      exact ⟨faced, there, same inner⟩
    · obtain ⟨faced, there, -⟩ := fits_iff.1 fits way _ leads
      refine ⟨faced, there, or_iff_not_imp_left.2 fun other => ?_⟩
      have wanted : pattern.Wants ground symbol way := ⟨faced, ⟨leads, there⟩, other⟩
      obtain ⟨entry, mem, rfl⟩ := List.mem_map.1 ((mem_map_demands_iff fits).2 ⟨way, wanted⟩)
      exact ⟨(free entry mem).1, (free entry mem).2, fun way' part' faces' other' =>
        (nodup_demands_iff fits).1 nodup entry.1 way' way ⟨part', faces', other'⟩ wanted⟩

/-! ## What a match leaves behind -/

/-- A table that has got no more than new values, all of them parts of the expression. -/
structure GrownWithin (ground : Expr) (before after : Bindings) : Prop where
  quantified : after.quantified = before.quantified
  kept : ∀ symbol value, before.get? symbol = some value → after.get? symbol = some value
  parts : ∀ symbol value, after.get? symbol = some value →
    before.get? symbol = some value ∨ ∃ way, ground.part? way = some value

namespace GrownWithin

variable {before middle after bindings : Bindings}

theorem refl (ground : Expr) (bindings : Bindings) : ground.GrownWithin bindings bindings :=
  ⟨rfl, fun _ _ bound => bound, fun _ _ bound => .inl bound⟩

theorem trans (first : ground.GrownWithin before middle)
    (second : ground.GrownWithin middle after) : ground.GrownWithin before after where
  quantified := second.quantified.trans first.quantified
  kept symbol value bound := second.kept symbol value (first.kept symbol value bound)
  parts symbol value bound := by
    rcases second.parts symbol value bound with earlier | new
    · exact first.parts symbol value earlier
    · exact .inr new

/-- A part of an operand is a part of the operation. -/
theorem of_operand (side : Side) (stands : ground.operandOn? side = some part)
    (grown : part.GrownWithin before after) : ground.GrownWithin before after where
  quantified := grown.quantified
  kept := grown.kept
  parts symbol value bound := by
    rcases grown.parts symbol value bound with earlier | ⟨way, leads⟩
    · exact .inl earlier
    · exact .inr ⟨side :: way, by rw [part?, stands]; exact leads⟩

theorem of_bind? (bound : before.bind? symbol ground = some after) :
    ground.GrownWithin before after := by
  obtain ⟨⟨-, free⟩, quantified, -⟩ := Bindings.bind?_eq_some_iff.1 bound
  refine ⟨quantified, fun other value known => ?_, fun other value known => ?_⟩
  · rw [Bindings.get?_of_bind? bound]
    split
    · rename_i same
      rw [← same, free] at known
      cases known
    · exact known
  · rw [Bindings.get?_of_bind? bound] at known
    split at known
    · exact .inr ⟨[], known⟩
    · exact .inl known

end GrownWithin

/-- Whether it succeeds or not, a match leaves a table behind that has got only parts of the
expression as new values. -/
theorem matches?_grows (pattern ground : Expr) (bindings : Bindings) :
    ground.GrownWithin bindings (pattern.matches? ground bindings).2 := by
  induction pattern generalizing ground bindings with
  | atom symbol =>
      rw [matches?]
      split
      · exact .refl ground bindings
      · split
        · rename_i extended bound
          exact .of_bind? bound
        · exact .refl ground bindings
  | unary operator operand ih =>
      cases ground with
      | unary groundOperator groundOperand =>
          rw [matches?]
          split
          · exact (ih groundOperand bindings).of_operand .left rfl
          · exact .refl _ bindings
      | _ => exact .refl _ bindings
  | binary operator lhs rhs ihl ihr =>
      cases ground with
      | binary groundOperator groundLhs groundRhs =>
          have left : (binary groundOperator groundLhs groundRhs).GrownWithin bindings
              (lhs.matches? groundLhs bindings).2 := (ihl groundLhs bindings).of_operand .left rfl
          rw [matches?]
          split
          · split
            · rename_i extended matched
              rw [matched] at left
              exact left.trans ((ihr groundRhs extended).of_operand .right rfl)
            · rename_i extended failed
              rw [failed] at left
              exact left
          · exact .refl _ bindings
      | _ => exact .refl _ bindings

/-- Whatever is bound before, a pattern matches exactly the expressions that it agrees with.  Then
the answer is the expression, and just those atoms are bound in addition that face anything but
themselves, each to what it faces.  In any case nothing that was bound or quantified changes, and
the new values are parts of the expression. -/
theorem unify_eq_some_iff_agrees (pattern ground : Expr) (bindings : Bindings) :
    ((pattern.unify ground bindings).1.isSome ↔ pattern.Agrees ground bindings) ∧
      (∀ answer, (pattern.unify ground bindings).1 = some answer → answer = ground ∧
        ∀ symbol value, (pattern.unify ground bindings).2.get? symbol = some value ↔
          bindings.get? symbol = some value ∨
            (∃ way, pattern.Faces ground way symbol value) ∧ value ≠ .atom symbol) ∧
      ground.GrownWithin bindings (pattern.unify ground bindings).2 := by
  have grown := matches?_grows pattern ground bindings
  have agreed : pattern.Agrees ground bindings ↔
      ∃ extended, pattern.matches? ground bindings = (true, extended) := by
    simp only [agrees_iff, matches?_eq_true_iff, exists_and_left, Bindings.exists_bindAll?_iff]
  rw [agreed, unify]
  cases found : pattern.matches? ground bindings with
  | mk success extended =>
      rw [found] at grown
      cases success with
      | false => simpa using grown
      | true =>
          refine ⟨by simp, fun answer given => ?_, grown⟩
          refine ⟨(Option.some.inj given).symm, fun symbol value => ?_⟩
          obtain ⟨fits, bound⟩ := matches?_eq_true_iff.1 found
          change extended.get? symbol = some value ↔ _
          rw [Bindings.get?_eq_some_iff, (Bindings.values_of_bindAll? bound).2, List.mem_append,
            List.mem_reverse, mem_demands_iff, mem_facing_iff fits, ← Bindings.get?_eq_some_iff,
            or_comm]

end Expr

end Calculation
