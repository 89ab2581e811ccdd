/-!
Regions of a text, counted in UTF-8 bytes.

All positions in this library count bytes, so a `Span` is a half-open interval of byte offsets and
`byteLength` is the number of bytes that a run of characters takes.
-/

namespace Calculation.Text

/-- The number of bytes that the characters take in UTF-8. -/
def byteLength : List Char → Nat
  | [] => 0
  | c :: rest => c.utf8Size + byteLength rest

@[simp]
theorem byteLength_append (front back : List Char) :
    byteLength (front ++ back) = byteLength front + byteLength back := by
  induction front with
  | nil => simp [byteLength]
  | cons c rest ih => simp [byteLength, ih, Nat.add_assoc]

end Calculation.Text

namespace Calculation

/-- The bytes from `start` up to, and not including, `stop`. -/
structure Span where
  start : Nat
  stop : Nat
deriving DecidableEq

namespace Span

/-- The empty span at a position. -/
def empty (position : Nat) : Span := ⟨position, position⟩

/-- The span from the start of one span to the end of another. -/
def through (first last : Span) : Span := ⟨first.start, last.stop⟩

/-- The same region of a text that stands `offset` bytes further on. -/
def shift (span : Span) (offset : Nat) : Span := ⟨span.start + offset, span.stop + offset⟩

end Span

end Calculation
