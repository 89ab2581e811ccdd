import Calculation.Command.Line
import Calculation.Text.Slice

/-!
Lines that are split at byte offsets.

`Line.split?` finds where the word of a line and its arguments start and stop by lengths in bytes,
and cuts them out there.  A command that was read and is refused later on points at regions that are
worked out once more: that of the word in the same way (`Line.commandSpan?`), that of the arguments
in another (`Line.argumentsSpan?`).  None of this has a result if a greater offset is taken from a
smaller one, or if a text is cut within a character.
-/

namespace Calculation

namespace Text

/-- How many bytes one offset is behind another, if it is. -/
def bytesBetween? (start stop : Nat) : Option Nat :=
  if start ≤ stop then some (stop - start) else none

/-- The characters of a text from an offset on. -/
def fromByte? (offset : Nat) (text : List Char) : Option (List Char) :=
  (splitBytes? offset text).map Prod.snd

/-- The offset of the first blank. -/
def blankOffset? : List Char → Option Nat
  | [] => none
  | c :: rest => if isBlank c then some 0 else (blankOffset? rest).map (c.utf8Size + ·)

end Text

open Text

namespace Command.Line

/-- The region of the word that the line starts with after its blanks. -/
def commandSpan? (source : List Char) : Option Span := do
  let start ← bytesBetween? (byteLength (trimStart source)) (byteLength source)
  let fromWord ← fromByte? start source
  let stop := match blankOffset? fromWord with
    | some bytes => start + bytes
    | none => byteLength source
  pure ⟨start, stop⟩

/-- The region of what follows the word, or of the word if nothing does. -/
def argumentsSpan? (source : List Char) : Option Span := do
  let word ← commandSpan? source
  let afterWord ← fromByte? word.stop source
  let start ← bytesBetween? (byteLength (trimStart afterWord)) (byteLength source)
  let stop := max (byteLength (trimEnd source)) start
  pure (if start = stop then word else ⟨start, stop⟩)

/-- Splits the characters of a line. -/
def split? (source : List Char) : Option Line := do
  let wordSpan ← commandSpan? source
  let afterWord ← fromByte? wordSpan.stop source
  let blanks ← bytesBetween? (byteLength (trimStart afterWord)) (byteLength afterWord)
  let start := wordSpan.stop + blanks
  let stop := wordSpan.stop + byteLength (trimEnd afterWord)
  let argumentsSpan : Span := ⟨start, max stop start⟩
  let word ← slice? source wordSpan
  let arguments ← slice? source argumentsSpan
  pure { word := String.ofList word, wordSpan, arguments, argumentsSpan }

end Command.Line

end Calculation
