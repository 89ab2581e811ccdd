import Calculation.Text.Span

/-!
The piece of a text that stands in a region.

A region cuts a piece out of a text only if both of its ends are at the borders of characters.
-/

namespace Calculation.Text

/-- Cuts a text after its first `bytes` bytes, if a character ends there. -/
def splitBytes? : (bytes : Nat) → List Char → Option (List Char × List Char)
  | 0, text => some ([], text)
  | _ + 1, [] => none
  | bytes + 1, c :: rest =>
    if c.utf8Size ≤ bytes + 1 then
      (splitBytes? (bytes + 1 - c.utf8Size) rest).map fun (front, back) => (c :: front, back)
    else none

/-- The characters of the text that take up the region. -/
def slice? (text : List Char) (span : Span) : Option (List Char) :=
  if span.start ≤ span.stop then do
    let (_, rest) ← splitBytes? span.start text
    let (piece, _) ← splitBytes? (span.stop - span.start) rest
    pure piece
  else none

theorem byteLength_pos {text : List Char} (some : text ≠ []) : 0 < byteLength text := by
  cases text with
  | nil => exact absurd rfl some
  | cons c rest =>
    rw [byteLength]
    exact Nat.lt_of_lt_of_le c.utf8Size_pos (Nat.le_add_right _ _)

theorem splitBytes?_byteLength (front back : List Char) :
    splitBytes? (byteLength front) (front ++ back) = some (front, back) := by
  induction front with
  | nil => rw [byteLength, splitBytes?, List.nil_append]
  | cons c front ih =>
    have positive := c.utf8Size_pos
    obtain ⟨bytes, length⟩ : ∃ bytes, byteLength (c :: front) = bytes + 1 :=
      ⟨byteLength (c :: front) - 1, by rw [byteLength]; omega⟩
    have fits : c.utf8Size ≤ bytes + 1 := by rw [← length, byteLength]; omega
    have less : bytes + 1 - c.utf8Size = byteLength front := by rw [← length, byteLength]; omega
    rw [length, List.cons_append, splitBytes?, if_pos fits, less, ih]
    rfl

theorem splitBytes?_eq_some_iff {bytes : Nat} {text front back : List Char} :
    splitBytes? bytes text = some (front, back) ↔
      text = front ++ back ∧ bytes = byteLength front := by
  constructor
  · intro cut
    fun_induction splitBytes? bytes text generalizing front with
    | case1 text =>
      cases cut
      exact ⟨rfl, rfl⟩
    | case2 => cases cut
    | case3 bytes c rest fits ih =>
      obtain ⟨⟨front', back'⟩, cut', same⟩ := Option.map_eq_some_iff.1 cut
      cases same
      obtain ⟨rfl, length⟩ := ih cut'
      exact ⟨rfl, by rw [byteLength]; omega⟩
    | case4 => cases cut
  · rintro ⟨rfl, rfl⟩
    exact splitBytes?_byteLength front back

/-- A region cuts out what stands between a front part of the text and a back part. -/
theorem slice?_eq_some_iff {text piece : List Char} {span : Span} :
    slice? text span = some piece ↔ ∃ front back, text = front ++ (piece ++ back) ∧
      span = ⟨byteLength front, byteLength front + byteLength piece⟩ := by
  constructor
  · intro cut
    unfold slice? at cut
    split at cut
    · rename_i ordered
      obtain ⟨⟨front, rest⟩, first, cut⟩ := Option.bind_eq_some_iff.1 cut
      obtain ⟨⟨piece', back⟩, second, cut⟩ := Option.bind_eq_some_iff.1 cut
      cases cut
      obtain ⟨rfl, starts⟩ := splitBytes?_eq_some_iff.1 first
      obtain ⟨rfl, stops⟩ := splitBytes?_eq_some_iff.1 second
      refine ⟨front, back, rfl, ?_⟩
      cases span
      simp only [Span.mk.injEq] at starts stops ordered ⊢
      omega
    · cases cut
  · rintro ⟨front, back, rfl, rfl⟩
    have length : byteLength front + byteLength piece - byteLength front = byteLength piece :=
      Nat.add_sub_cancel_left ..
    rw [slice?, if_pos (Nat.le_add_right _ _)]
    simp only [splitBytes?_byteLength, length, bind, Option.bind, pure]

end Calculation.Text
