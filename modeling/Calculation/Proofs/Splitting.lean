import Calculation.Command.Offsets
import Mathlib.Data.List.TakeWhile

/-!
A line is split at byte offsets as it is by its characters.

A line consists of blanks, its word, blanks, its arguments and blanks, and any of them but the word
may be missing, or all of it (`Parts`).  The offsets that are worked out are where these parts meet,
so that none of them is taken from a smaller one and all of them are borders of characters.

* `Parts.split?`, `Parts.commandSpan?`, `Parts.argumentsSpan?`: each of the computations.
* `splits_ofChars`: what they come to for any line.
-/

namespace Calculation

namespace Text

variable {text : List Char}

/-! ## Trimming -/

/-- What is trimmed off at the end. -/
theorem exists_trimEnd (text : List Char) : ∃ blanks, text = trimEnd text ++ blanks := by
  refine ⟨(text.reverse.takeWhile isBlank).reverse, ?_⟩
  rw [trimEnd, ← List.reverse_append, List.takeWhile_append_dropWhile, List.reverse_reverse]

theorem byteLength_trimEnd_le (text : List Char) : byteLength (trimEnd text) ≤ byteLength text := by
  obtain ⟨blanks, whole⟩ := exists_trimEnd text
  have length := congrArg byteLength whole
  rw [byteLength_append] at length
  omega

/-- Trimming at the end leaves what stands before a text alone, if any of the text is left. -/
theorem trimEnd_append (front : List Char) (some : trimEnd text ≠ []) :
    trimEnd (front ++ text) = front ++ trimEnd text := by
  have left : ¬ (text.reverse.dropWhile isBlank).isEmpty := by
    rw [List.isEmpty_iff]
    exact fun none => some (congrArg List.reverse none)
  rw [trimEnd, List.reverse_append, List.dropWhile_append, if_neg left, List.reverse_append,
    List.reverse_reverse]
  rfl

/-- What starts with no blank is trimmed to nothing only if it is nothing. -/
theorem trimStart_eq_nil (none : trimEnd (trimStart text) = []) : trimStart text = [] := by
  rw [trimEnd, List.reverse_eq_nil_iff, List.dropWhile_eq_nil_iff] at none
  have starts := List.head?_dropWhile_not isBlank text
  rw [trimStart] at none ⊢
  cases left : text.dropWhile isBlank with
  | nil => rfl
  | cons c rest =>
      rw [left] at none starts
      have blank : isBlank c = true := none c (by simp)
      rw [List.head?_cons] at starts
      cases blank.symm.trans starts

/-! ## Offsets -/

theorem bytesBetween?_append (front back : List Char) :
    bytesBetween? (byteLength back) (byteLength (front ++ back)) = some (byteLength front) := by
  rw [byteLength_append, bytesBetween?, if_pos (Nat.le_add_left ..), Nat.add_sub_cancel]

theorem fromByte?_append (front back : List Char) :
    fromByte? (byteLength front) (front ++ back) = some back := by
  rw [fromByte?, splitBytes?_byteLength]
  rfl

/-- The first blank stands behind all that comes before it, and if there is none that is the whole
text. -/
theorem getD_blankOffset? (text : List Char) :
    (blankOffset? text).getD (byteLength text) =
      byteLength (text.takeWhile fun c => !isBlank c) := by
  induction text with
  | nil => rfl
  | cons c text ih =>
      rw [blankOffset?, List.takeWhile_cons]
      cases isBlank c with
      | true => rfl
      | false =>
          rw [if_neg Bool.false_ne_true, Bool.not_false, if_pos rfl, byteLength, byteLength, ← ih]
          cases blankOffset? text <;> rfl

end Text

open Text

namespace Command.Line

/-! ## The parts of a line -/

/-- The line consists of the parts, the second its word and the fourth its arguments. -/
structure Parts (source before word between arguments behind : List Char) : Prop where
  whole : source = before ++ (word ++ (between ++ (arguments ++ behind)))
  fromWord : trimStart source = word ++ (between ++ (arguments ++ behind))
  takesWord : (trimStart source).takeWhile (fun c => !isBlank c) = word
  fromArguments : trimStart (between ++ (arguments ++ behind)) = arguments ++ behind
  trimmed : trimEnd (arguments ++ behind) = arguments
  bare : arguments = [] → behind = []
  line : ofChars source = {
    word := String.ofList word
    wordSpan := ⟨byteLength before, byteLength before + byteLength word⟩
    arguments
    argumentsSpan := ⟨byteLength (before ++ (word ++ between)),
      byteLength (before ++ (word ++ between)) + byteLength arguments⟩ }

theorem exists_parts (source : List Char) :
    ∃ before word between arguments behind,
      Parts source before word between arguments behind := by
  have first : source.takeWhile isBlank ++ trimStart source = source :=
    List.takeWhile_append_dropWhile
  have second : (trimStart source).takeWhile (fun c => !isBlank c) ++
      (trimStart source).dropWhile (fun c => !isBlank c) = trimStart source :=
    List.takeWhile_append_dropWhile
  generalize made : (trimStart source).dropWhile (fun c => !isBlank c) = afterWord at second
  have third : afterWord.takeWhile isBlank ++ trimStart afterWord = afterWord :=
    List.takeWhile_append_dropWhile
  obtain ⟨behind, last⟩ := exists_trimEnd (trimStart afterWord)
  refine ⟨source.takeWhile isBlank, (trimStart source).takeWhile fun c => !isBlank c,
    afterWord.takeWhile isBlank, trimEnd (trimStart afterWord), behind, ?_⟩
  have rest : afterWord.takeWhile isBlank ++ (trimEnd (trimStart afterWord) ++ behind) =
      afterWord := by rw [← last, third]
  constructor
  case whole => rw [rest, second, first]
  case fromWord => rw [rest, second]
  case takesWord => rfl
  case fromArguments => rw [rest, ← last]
  case trimmed => rw [← last]
  case bare =>
    intro none
    rw [none, trimStart_eq_nil none] at last
    exact last.symm
  case line =>
    have wordStart : byteLength source - byteLength (trimStart source) =
        byteLength (source.takeWhile isBlank) := by
      have length := congrArg byteLength first
      rw [byteLength_append] at length
      omega
    have argumentsStart : byteLength source - byteLength (trimStart afterWord) =
        byteLength (source.takeWhile isBlank ++ ((trimStart source).takeWhile
          (fun c => !isBlank c) ++ afterWord.takeWhile isBlank)) := by
      have length := congrArg byteLength first
      have length' := congrArg byteLength second
      have length'' := congrArg byteLength third
      simp only [byteLength_append] at length length' length'' ⊢
      omega
    simp only [ofChars, made, wordStart, argumentsStart]

namespace Parts

variable {source before word between arguments behind : List Char}

theorem slice?_wordSpan (parts : Parts source before word between arguments behind) :
    slice? source (ofChars source).wordSpan = some word := by
  rw [parts.line, slice?_eq_some_iff]
  exact ⟨before, _, parts.whole, rfl⟩

theorem slice?_argumentsSpan (parts : Parts source before word between arguments behind) :
    slice? source (ofChars source).argumentsSpan = some arguments := by
  rw [parts.line, slice?_eq_some_iff]
  refine ⟨before ++ (word ++ between), behind, ?_, rfl⟩
  simpa only [List.append_assoc] using parts.whole

/-- With arguments, what is trimmed off at the end is what comes behind them. -/
theorem trimEnd_append (parts : Parts source before word between arguments behind)
    (some : arguments ≠ []) (front : List Char) :
    trimEnd (front ++ (arguments ++ behind)) = front ++ arguments := by
  rw [Text.trimEnd_append front (by rw [parts.trimmed]; exact some), parts.trimmed]

theorem commandSpan? (parts : Parts source before word between arguments behind) :
    Line.commandSpan? source = some (ofChars source).wordSpan := by
  have whole : before ++ trimStart source = source := by rw [parts.fromWord, ← parts.whole]
  have start := bytesBetween?_append before (trimStart source)
  have cut := fromByte?_append before (trimStart source)
  have length := byteLength_append before (trimStart source)
  rw [whole] at start cut length
  have ends := getD_blankOffset? (trimStart source)
  rw [parts.takesWord] at ends
  simp only [Line.commandSpan?, start, cut, Option.bind_eq_bind, Option.bind_some, parts.line]
  cases blank : blankOffset? (trimStart source) with
  | none =>
      have stop : byteLength source = byteLength before + byteLength word := by
        rw [length, ← ends, blank]
        rfl
      exact congrArg (fun stop => some (⟨byteLength before, stop⟩ : Span)) stop
  | some bytes =>
      have stop : bytes = byteLength word := by
        rw [← ends, blank]
        rfl
      rw [stop]
      rfl

/-- What follows the word is cut off where the word stops. -/
theorem fromByte?_word (parts : Parts source before word between arguments behind) :
    fromByte? (ofChars source).wordSpan.stop source =
      some (between ++ (arguments ++ behind)) := by
  have cut := fromByte?_append (before ++ word) (between ++ (arguments ++ behind))
  rw [List.append_assoc, ← parts.whole, byteLength_append] at cut
  rw [parts.line]
  exact cut

theorem split? (parts : Parts source before word between arguments behind) :
    Line.split? source = some (ofChars source) := by
  have blanks := bytesBetween?_append between (arguments ++ behind)
  have start : byteLength before + byteLength word + byteLength between =
      byteLength (before ++ (word ++ between)) := by
    rw [byteLength_append, byteLength_append, Nat.add_assoc]
  have stop : max (byteLength before + byteLength word +
        byteLength (trimEnd (between ++ (arguments ++ behind))))
      (byteLength (before ++ (word ++ between))) =
        byteLength (before ++ (word ++ between)) + byteLength arguments := by
    rw [← start]
    by_cases none : arguments = []
    · have shorter := byteLength_trimEnd_le between
      rw [none, parts.bare none, List.append_nil, List.append_nil, byteLength]
      omega
    · rw [parts.trimEnd_append none, byteLength_append]
      omega
  have first := parts.slice?_wordSpan
  have second := parts.slice?_argumentsSpan
  rw [Line.split?, parts.commandSpan?, Option.bind_eq_bind, Option.bind_some, parts.fromByte?_word,
    Option.bind_eq_bind, Option.bind_some, parts.fromArguments, blanks]
  rw [parts.line] at first second ⊢
  simp only [Option.bind_eq_bind, Option.bind_some, start, stop] at first second ⊢
  rw [first, Option.bind_some, second]
  rfl

theorem argumentsSpan? (parts : Parts source before word between arguments behind) :
    Line.argumentsSpan? source = some (ofChars source).operandSpan := by
  have whole : (before ++ (word ++ between)) ++ (arguments ++ behind) = source := by
    simpa only [List.append_assoc] using parts.whole.symm
  have start := bytesBetween?_append (before ++ (word ++ between)) (arguments ++ behind)
  have length := byteLength_append (before ++ (word ++ between)) (arguments ++ behind)
  rw [whole] at start length
  rw [Line.argumentsSpan?, parts.commandSpan?, Option.bind_eq_bind, Option.bind_some,
    parts.fromByte?_word, Option.bind_eq_bind, Option.bind_some, parts.fromArguments, start,
    Option.bind_eq_bind, Option.bind_some, operandSpan, isBare]
  by_cases none : arguments = []
  · have shorter := byteLength_trimEnd_le source
    rw [none, parts.bare none, List.append_nil, byteLength, Nat.add_zero] at length
    have stop : max (byteLength (trimEnd source)) (byteLength (before ++ (word ++ between))) =
        byteLength (before ++ (word ++ between)) := by omega
    rw [stop]
    dsimp only
    rw [if_pos rfl, parts.line, none]
    rfl
  · have positive := byteLength_pos none
    have stop : max (byteLength (trimEnd source)) (byteLength (before ++ (word ++ between))) =
        byteLength (before ++ (word ++ between)) + byteLength arguments := by
      rw [← whole, parts.trimEnd_append none, byteLength_append _ arguments]
      omega
    have apart : byteLength (before ++ (word ++ between)) ≠
        byteLength (before ++ (word ++ between)) + byteLength arguments := by omega
    have some : arguments.isEmpty = false := by
      rw [List.isEmpty_eq_false_iff]
      exact none
    rw [stop]
    dsimp only
    rw [if_neg apart, parts.line, some]
    rfl

end Parts

/-- The regions of the line are known by what they cut out of it, however they are worked out.  No
computation at byte offsets fails. -/
structure Splits (source : List Char) (line : Line) : Prop where
  split : split? source = some line
  word : slice? source line.wordSpan = some line.word.toList
  arguments : slice? source line.argumentsSpan = some line.arguments
  commandSpan : commandSpan? source = some line.wordSpan
  argumentsSpan : line.isBare = false → argumentsSpan? source = some line.argumentsSpan
  bareSpan : line.isBare = true → argumentsSpan? source = some line.wordSpan

/-- However blank a line is, it is split at byte offsets as it is by its characters. -/
theorem splits_ofChars (source : List Char) : Splits source (ofChars source) := by
  obtain ⟨before, word, between, arguments, behind, parts⟩ := exists_parts source
  have later := parts.argumentsSpan?
  rw [operandSpan] at later
  constructor
  case split => exact parts.split?
  case commandSpan => exact parts.commandSpan?
  case word =>
    have cut := parts.slice?_wordSpan
    rw [parts.line, String.toList_ofList]
    rwa [parts.line] at cut
  case arguments =>
    have cut := parts.slice?_argumentsSpan
    rw [parts.line]
    rwa [parts.line] at cut
  case argumentsSpan =>
    intro some
    rwa [some] at later
  case bareSpan =>
    intro none
    rwa [none] at later

end Command.Line

end Calculation
