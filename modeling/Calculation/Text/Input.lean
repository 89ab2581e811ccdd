/-!
What users type: lines, blanks, numerals, and words that are misspelt.

A line ends at a line feed, and a carriage return directly before that line feed belongs to the
line end.  A last line without a line feed is a line as it stands, and a text that ends with a line
feed has no empty line after it.

A character is blank if it has the Unicode property White_Space: 25 characters, of which the
tokens of the language know only four.  Command lines are split and trimmed at all of them.

A numeral is digits, with or without a plus sign before them.  Numbers are kept to 64 bits, so a
numeral for `2 ^ 64` or more is refused like any other text that is not a number.
-/

namespace Calculation.Text

/-! ## Lines -/

/-- The line whose characters were read in reverse, without the carriage return of its end. -/
def closeLine : List Char → String
  | '\r' :: reversed => String.ofList reversed.reverse
  | reversed => String.ofList reversed.reverse

/-- The lines of the text after the characters of `current`, which were read in reverse. -/
def linesFrom (current : List Char) : List Char → List String
  | [] => if current.isEmpty then [] else [String.ofList current.reverse]
  | '\n' :: rest => closeLine current :: linesFrom [] rest
  | c :: rest => linesFrom (c :: current) rest

def lines (text : String) : List String := linesFrom [] text.toList

/-! ## Blanks -/

/-- Whether the character is one of the 25 with the Unicode property White_Space. -/
def isBlank (c : Char) : Bool :=
  let code := c.toNat
  (0x09 ≤ code && code ≤ 0x0D) || code == 0x20 || code == 0x85 || code == 0xA0 ||
    code == 0x1680 || (0x2000 ≤ code && code ≤ 0x200A) || code == 0x2028 || code == 0x2029 ||
    code == 0x202F || code == 0x205F || code == 0x3000

def trimStart (text : List Char) : List Char := text.dropWhile isBlank

def trimEnd (text : List Char) : List Char := (text.reverse.dropWhile isBlank).reverse

def trim (text : List Char) : List Char := trimEnd (trimStart text)

/-! ## Numerals -/

/-- The least number that is too big, `2 ^ 64`. -/
def numeralBound : Nat := 18446744073709551616

/-- The number that the decimal digits stand for, the first of them the most significant. -/
def ofDigits (digits : List Char) : Nat :=
  digits.foldl (fun value digit => 10 * value + (digit.toNat - '0'.toNat)) 0

/-- The digits of a numeral, its plus sign removed. -/
def withoutPlus : List Char → List Char
  | '+' :: digits => digits
  | digits => digits

def readNumeral? (text : List Char) : Option Nat :=
  let digits := withoutPlus text
  if digits.isEmpty || !digits.all Char.isDigit then
    none
  else
    let value := ofDigits digits
    if value < numeralBound then some value else none

/-! ## Words that are misspelt

How far apart two words are is the least number of characters to insert, delete or replace in one
of them to get the other.  The distances are computed row by row.  The row of a prefix of the first
word holds its distance to every prefix of the second, the shortest first. -/

/-- The rest of the row for one more character `c` of the first word: `left` is the entry before
it, `diagonal` the entry above that one, and the list holds the characters of the second word, each
with the entry above it. -/
def distanceEntries (c : Char) (left diagonal : Nat) : List (Char × Nat) → List Nat
  | [] => []
  | (d, above) :: rest =>
    let entry := min (min (left + 1) (above + 1)) (if c = d then diagonal else diagonal + 1)
    entry :: distanceEntries c entry above rest

def distanceRow (second : List Char) (c : Char) : List Nat → List Nat
  | [] => []
  | corner :: above => (corner + 1) :: distanceEntries c (corner + 1) corner (second.zip above)

/-- The least number of characters to insert, delete or replace between the two words. -/
def editDistance (first second : List Char) : Nat :=
  let rows := first.foldl (fun row c => distanceRow second c row) (List.range (second.length + 1))
  rows.getLast?.getD 0

end Calculation.Text
