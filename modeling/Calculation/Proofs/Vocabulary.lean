import Calculation.Command

/-!
What a line asks for.

The word of a line and its arguments, and for a rule the whole line, are all that decides whether
the line is a command and which one (`Command.meant?`).  The rest of what reading a line does is to
find out where to point if it is none.

* `Command.parse_eq_ok_iff`: the commands that are read.
-/

namespace Calculation

/-! ## Results without their errors -/

section

variable {ε α β : Type}

theorem toOption_map (f : α → β) (result : Except ε α) :
    (result.map f).toOption = result.toOption.map f := by
  cases result <;> rfl

theorem toOption_bind (result : Except ε α) (rest : α → Except ε β) :
    (result >>= rest).toOption = result.toOption.bind fun value => (rest value).toOption := by
  cases result <;> rfl

theorem toOption_eq_some_iff {result : Except ε α} {value : α} :
    result.toOption = some value ↔ result = .ok value := by
  cases result <;> simp [Except.toOption]

end

namespace Command

/-! ## What is meant -/

/-- The chain that is meant by the arguments, if they are a number or missing. -/
def chainNumber? (arguments : List Char) : Option (Option Nat) :=
  if arguments.isEmpty then some none else (Text.readNumeral? arguments).map some

/-- The node that is meant by the arguments. -/
def nodeReference? (arguments : List Char) : Option NodeReference :=
  match splitAtPeriod? arguments with
  | some (front, back) =>
    (Text.readNumeral? front).bind fun chain =>
      (Text.readNumeral? back).map fun index => ⟨some chain, index⟩
  | none => (Text.readNumeral? arguments).map fun index => ⟨none, index⟩

/-- What the verb asks for with the arguments, if anything. Rules are read from the whole line. -/
def meant? (source : String) (arguments : List Char) : Verb → Option Command
  | .begin =>
    if arguments.isEmpty then none
    else (Expr.parse (String.ofList arguments)).toOption.map .begin
  | .rule => (Rule.parse source).toOption.map .rule
  | .rules => if arguments.isEmpty then some .rules else none
  | .chain => (chainNumber? arguments).map .chain
  | .nodes => (chainNumber? arguments).map .nodes
  | .select => (nodeReference? arguments).map .select
  | .choose => (Text.readNumeral? arguments).map .choose
  | .dismiss => if arguments.isEmpty then some .dismiss else none
  | .escape => if arguments.isEmpty then some .escape else none
  | .commit => if arguments.isEmpty then some .commit else none
  | .help => some .help
  | .quit => some .quit

/-! ## What is read -/

namespace Line

variable (line : Line)

theorem toOption_required (needed : String) : (line.required needed).toOption =
    if line.arguments.isEmpty then none else some line.arguments := by
  unfold required isBare
  split <;> rfl

theorem toOption_bare {α : Type} (value : α) :
    (line.bare value).toOption = if line.arguments.isEmpty then some value else none := by
  unfold bare isBare
  split <;> rfl

theorem toOption_number (expected : String) (text : List Char) :
    (line.number expected text).toOption = Text.readNumeral? text := by
  unfold number
  cases Text.readNumeral? text <;> rfl

theorem toOption_chainNumber : line.chainNumber.toOption = chainNumber? line.arguments := by
  unfold chainNumber chainNumber? isBare
  split
  · rfl
  · rw [toOption_map, toOption_number]

theorem toOption_nodeReference : line.nodeReference.toOption = nodeReference? line.arguments := by
  unfold nodeReference nodeReference?
  rw [toOption_bind, toOption_required]
  cases given : line.arguments with
  | nil => rfl
  | cons c rest =>
      rw [List.isEmpty_cons, if_neg Bool.false_ne_true, Option.bind_some]
      cases splitAtPeriod? (c :: rest) with
      | none =>
          dsimp only
          rw [toOption_bind, toOption_number]
          cases Text.readNumeral? (c :: rest) <;> rfl
      | some parts =>
          obtain ⟨front, back⟩ := parts
          dsimp only
          rw [toOption_bind, toOption_number]
          cases Text.readNumeral? front with
          | none => rfl
          | some chain =>
              rw [Option.bind_some, Option.bind_some, toOption_bind, toOption_number]
              cases Text.readNumeral? back <;> rfl

end Line

theorem toOption_read (source : String) (line : Line) (verb : Verb) :
    (read source line verb).toOption = meant? source line.arguments verb := by
  cases verb with
  | begin =>
      unfold read meant?
      dsimp only
      rw [toOption_bind, Line.toOption_required]
      split
      · rfl
      · rw [Option.bind_some]
        cases Expr.parse (String.ofList line.arguments) <;> rfl
  | rule => exact toOption_map _ _
  | rules => exact line.toOption_bare _
  | chain => exact (toOption_map _ _).trans (congrArg _ line.toOption_chainNumber)
  | nodes => exact (toOption_map _ _).trans (congrArg _ line.toOption_chainNumber)
  | select => exact (toOption_map _ _).trans (congrArg _ line.toOption_nodeReference)
  | choose =>
      unfold read meant?
      dsimp only
      rw [toOption_bind, Line.toOption_required]
      cases given : line.arguments with
      | nil => rfl
      | cons c rest =>
          rw [List.isEmpty_cons, if_neg Bool.false_ne_true, Option.bind_some, toOption_bind,
            Line.toOption_number]
          cases Text.readNumeral? (c :: rest) <;> rfl
  | dismiss => exact line.toOption_bare _
  | escape => exact line.toOption_bare _
  | commit => exact line.toOption_bare _
  | help => rfl
  | quit => rfl

/-- A line is a command if its word is that of a verb which can be asked for with its arguments. -/
theorem parse_eq_ok_iff {source : String} {command : Command} :
    parse source = .ok command ↔ ∃ verb, Verb.ofWord? (Line.ofString source).word = some verb ∧
      meant? source (Line.ofString source).arguments verb = some command := by
  unfold parse
  dsimp only
  cases Verb.ofWord? (Line.ofString source).word with
  | none => simp
  | some verb => simp [← toOption_read, toOption_eq_some_iff]

theorem meant?_eq_some_rule_iff {source : String} {arguments : List Char} {verb : Verb}
    {rule : Rule} :
    meant? source arguments verb = some (.rule rule) ↔
      verb = .rule ∧ Rule.parse source = .ok rule := by
  cases verb <;> simp [meant?, toOption_eq_some_iff]

/-- Only for a rule does it matter what else is in the line. -/
theorem meant?_eq_of_ne_rule {verb : Verb} (other : verb ≠ .rule) (source source' : String)
    (arguments : List Char) : meant? source arguments verb = meant? source' arguments verb := by
  cases verb with
  | rule => exact absurd rfl other
  | _ => rfl

end Command

end Calculation
