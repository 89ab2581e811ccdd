import Calculation.Text.Input
import Calculation.Text.Span

/-!
Command lines: a word, and the arguments after it.

The word is the first run of characters that are not blank.  Its arguments are all that follows,
without the blanks around them, and both are known with the region of the line that they take.
-/

namespace Calculation.Command

/-- A line split into its first word and what follows it. -/
structure Line where
  word : String
  wordSpan : Span
  arguments : List Char
  argumentsSpan : Span
deriving DecidableEq

namespace Line

/-- Splits the characters of a line.  The arguments of a line that has none are the empty region at
its end. -/
def ofChars (source : List Char) : Line :=
  let fromWord := Text.trimStart source
  let word := fromWord.takeWhile fun c => !Text.isBlank c
  let afterWord := fromWord.dropWhile fun c => !Text.isBlank c
  let fromArguments := Text.trimStart afterWord
  let arguments := Text.trimEnd fromArguments
  let wordStart := Text.byteLength source - Text.byteLength fromWord
  let argumentsStart := Text.byteLength source - Text.byteLength fromArguments
  { word := String.ofList word
    wordSpan := ⟨wordStart, wordStart + Text.byteLength word⟩
    arguments
    argumentsSpan := ⟨argumentsStart, argumentsStart + Text.byteLength arguments⟩ }

def ofString (source : String) : Line := ofChars source.toList

def isBare (line : Line) : Bool := line.arguments.isEmpty

/-- The region that what a command works on is told by: its arguments, or the word of a command that
has none. -/
def operandSpan (line : Line) : Span := if line.isBare then line.wordSpan else line.argumentsSpan

end Line

end Calculation.Command
