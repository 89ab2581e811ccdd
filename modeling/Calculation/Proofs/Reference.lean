import Calculation.Proofs.Padding

/-!
Nodes as they are typed.

What a node is known by is a number, or two numbers with a period between them.  It is read back as
what it was written from (`Command.Selects.parse_eq_ok_iff`), unless a number is too great to be
read.  So no two references have the same text.
-/

namespace Calculation

/-! ## Numerals -/

namespace Text

variable {number : Nat} {c : Char}

theorem isDigit_of_mem_toString (mem : c ∈ (toString number).toList) : c.isDigit = true := by
  rw [Nat.toString_eq_repr, Nat.toList_repr] at mem
  exact Nat.isDigit_of_mem_toDigits (by decide) (by decide) mem

theorem ofDigits_toString (number : Nat) : ofDigits (toString number).toList = number := by
  rw [Nat.toString_eq_repr, Nat.toList_repr, ofDigits, ← Nat.ofDigitChars_eq_foldl,
    Nat.ofDigitChars_ten_toDigits]

theorem eq_of_toString_eq {other : Nat}
    (same : (toString number).toList = (toString other).toList) : number = other := by
  rw [← ofDigits_toString number, same, ofDigits_toString]

/-- A number is read back from its digits if it is not too great. -/
theorem readNumeral?_toString (number : Nat) :
    readNumeral? (toString number).toList = if number < numeralBound then some number else none := by
  have digits : ∀ c ∈ (toString number).toList, c.isDigit = true :=
    fun c mem => isDigit_of_mem_toString mem
  have bare : withoutPlus (toString number).toList = (toString number).toList := by
    unfold withoutPlus
    split
    · rename_i more plus
      cases (digits '+' (by rw [plus]; exact List.mem_cons_self))
    · rfl
  have some : (toString number).toList ≠ [] := by
    rw [Nat.toString_eq_repr, Nat.toList_repr]
    exact Nat.toDigits_ne_nil
  unfold readNumeral?
  dsimp only
  rw [bare, ofDigits_toString, if_neg]
  rw [List.all_eq_true.2 digits, Bool.not_true, Bool.or_false, List.isEmpty_iff]
  exact some

end Text

namespace Command

variable {reference other : NodeReference} {source : String} {front back : List Char}

/-! ## References -/

/-- The number of the chain is set apart from that of the node. -/
theorem splitAtPeriod?_append (none : '.' ∉ front) (back : List Char) :
    splitAtPeriod? (front ++ '.' :: back) = some (front, back) := by
  induction front with
  | nil => rfl
  | cons c front ih =>
      rw [List.mem_cons, not_or] at none
      obtain ⟨other, none⟩ := none
      rw [List.cons_append, splitAtPeriod?.eq_3 _ _ (Ne.symm other), ih none]
      rfl

theorem splitAtPeriod?_eq_none (none : '.' ∉ front) : splitAtPeriod? front = .none := by
  induction front with
  | nil => rfl
  | cons c front ih =>
      rw [List.mem_cons, not_or] at none
      obtain ⟨other, none⟩ := none
      rw [splitAtPeriod?.eq_3 _ _ (Ne.symm other), ih none]
      rfl

theorem period_not_mem_toString (number : Nat) : '.' ∉ (toString number).toList := by
  intro mem
  cases Text.isDigit_of_mem_toString mem

namespace NodeReference

/-- The numbers of the reference are not too great to be read. -/
def Readable (reference : NodeReference) : Prop :=
  (∀ chain, reference.chain = some chain → chain < Text.numeralBound) ∧
    reference.index < Text.numeralBound

theorem toList_text_some (chain index : Nat) : (text ⟨some chain, index⟩).toList =
    (toString chain).toList ++ '.' :: (toString index).toList := by
  simp [text]

/-- Where the period of a reference is, if there is one. -/
theorem splitAtPeriod?_text (reference : NodeReference) :
    splitAtPeriod? reference.text.toList =
      reference.chain.map fun chain => ((toString chain).toList, (toString reference.index).toList) := by
  obtain ⟨_ | chain, index⟩ := reference
  · exact splitAtPeriod?_eq_none (period_not_mem_toString index)
  · rw [toList_text_some, splitAtPeriod?_append (period_not_mem_toString chain)]
    rfl

/-- References that are written the same are the same. -/
theorem eq_of_text_eq (same : reference.text = other.text) : reference = other := by
  have parts := reference.splitAtPeriod?_text
  rw [same, other.splitAtPeriod?_text] at parts
  obtain ⟨_ | chain, index⟩ := reference <;> obtain ⟨_ | chain', index'⟩ := other
  · have index : index = index' := Text.eq_of_toString_eq (congrArg String.toList same)
    rw [index]
  · cases parts
  · cases parts
  · have parts := Prod.mk.inj (Option.some.inj parts)
    have chain : chain' = chain := Text.eq_of_toString_eq parts.1
    have index : index' = index := Text.eq_of_toString_eq parts.2
    rw [chain, index]

theorem isBlank_of_mem_text {c : Char} (mem : c ∈ reference.text.toList) :
    Text.isBlank c = false := by
  have digit : ∀ number : Nat, c ∈ (toString number).toList → Text.isBlank c = false := by
    intro number mem
    apply Source.isBlank_of_continuesName
    simp [Source.continuesName, Char.isAlphanum, Text.isDigit_of_mem_toString mem]
  obtain ⟨_ | chain, index⟩ := reference
  · exact digit index mem
  · rw [toList_text_some, List.mem_append, List.mem_cons] at mem
    rcases mem with mem | rfl | mem
    · exact digit chain mem
    · rfl
    · exact digit index mem

end NodeReference

/-- A reference is read back from its text, if its numbers are not too great. -/
theorem nodeReference?_text_eq_some_iff :
    nodeReference? reference.text.toList = some other ↔ other = reference ∧ reference.Readable := by
  unfold nodeReference?
  rw [reference.splitAtPeriod?_text]
  obtain ⟨_ | chain, index⟩ := reference
  · have text : (NodeReference.text ⟨none, index⟩) = toString index := rfl
    rw [text, Option.map_none]
    dsimp only
    rw [Text.readNumeral?_toString]
    by_cases index : index < Text.numeralBound <;> simp [NodeReference.Readable, index, eq_comm]
  · dsimp only [Option.map_some]
    rw [Text.readNumeral?_toString, Text.readNumeral?_toString]
    by_cases chain : chain < Text.numeralBound <;> by_cases index : index < Text.numeralBound <;>
      simp [NodeReference.Readable, chain, index, eq_comm]

/-! ## Lines -/

/-- The line asks for the node that is typed as the text to be selected. -/
structure Selects (source text : String) : Prop where
  verb : Verb.ofWord? (Line.ofString source).word = some .select
  arguments : (Line.ofString source).arguments = text.toList

/-- What is read from a line that selects a node by what it is known by. -/
theorem Selects.parse_eq_ok_iff (selects : Selects source reference.text) {command : Command} :
    parse source = .ok command ↔ command = .select reference ∧ reference.Readable := by
  rw [Command.parse_eq_ok_iff, selects.verb, selects.arguments]
  have read : meant? source reference.text.toList .select =
      (nodeReference? reference.text.toList).map .select := rfl
  simp only [Option.some.injEq, exists_eq_left', read, Option.map_eq_some_iff,
    nodeReference?_text_eq_some_iff]
  constructor
  · rintro ⟨other, ⟨rfl, readable⟩, rfl⟩
    exact ⟨rfl, readable⟩
  · rintro ⟨rfl, readable⟩
    exact ⟨_, ⟨rfl, readable⟩, rfl⟩

/-- A word and a text with a space between them are the word and the arguments of a line. -/
theorem Line.ofChars_words {word text : List Char} (some : word ≠ [])
    (solid : ∀ c ∈ word, Text.isBlank c = false) (solid' : ∀ c ∈ text, Text.isBlank c = false) :
    (ofChars (word ++ ' ' :: text)).word = String.ofList word ∧
      (ofChars (word ++ ' ' :: text)).arguments = text := by
  have kept : ∀ list : List Char, (∀ c ∈ list, Text.isBlank c = false) →
      list.dropWhile Text.isBlank = list := by
    intro list solid
    cases list with
    | nil => rfl
    | cons c list => rw [List.dropWhile_cons_of_neg (by simp [solid c])]
  have first : Text.trimStart (word ++ ' ' :: text) = word ++ ' ' :: text := by
    obtain ⟨c, rest, rfl⟩ := List.exists_cons_of_ne_nil some
    rw [Text.trimStart, List.cons_append, List.dropWhile_cons_of_neg (by simp [solid c])]
  have inside : ∀ c ∈ word, (!Text.isBlank c) = true := fun c mem => by rw [solid c mem]; rfl
  have before : (word ++ ' ' :: text).takeWhile (fun c => !Text.isBlank c) = word := by
    rw [List.takeWhile_append_of_pos inside, List.takeWhile_cons_of_neg (by decide),
      List.append_nil]
  have after : (word ++ ' ' :: text).dropWhile (fun c => !Text.isBlank c) = ' ' :: text := by
    rw [List.dropWhile_append_of_pos inside, List.dropWhile_cons_of_neg (by decide)]
  have second : Text.trimStart (' ' :: text) = text := by
    rw [Text.trimStart, List.dropWhile_cons_of_pos (by decide), kept text solid']
  have last : Text.trimEnd text = text := by
    rw [Text.trimEnd, kept _ fun c mem => solid' c (List.mem_reverse.1 mem), List.reverse_reverse]
  simp only [ofChars, first, before, after, second, last, and_self]

theorem selects_text (reference : NodeReference) :
    Selects ("select " ++ reference.text) reference.text := by
  have solid : "select".toList.all (fun c => !Text.isBlank c) = true := by decide
  have solid : ∀ c ∈ "select".toList, Text.isBlank c = false := by
    simpa only [List.all_eq_true, Bool.not_eq_true'] using solid
  obtain ⟨word, arguments⟩ := Line.ofChars_words (by decide) solid
    fun c mem => NodeReference.isBlank_of_mem_text mem
  have split : ("select " ++ reference.text).toList =
      "select".toList ++ ' ' :: reference.text.toList := String.toList_append
  constructor
  · rw [Line.ofString, split, word]
    rfl
  · rw [Line.ofString, split, arguments]

end Command

end Calculation
