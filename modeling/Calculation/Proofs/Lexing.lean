import Calculation.Proofs.Reply
import Mathlib.Data.List.TakeWhile

/-!
The tokens of a text that is put together from pieces.

A piece is cut into the same tokens wherever it stands, as long as what comes next does not go on
with its last token (`Cuts`).  The tokens of a whole text are then those of its pieces
(`Cuts.append`).

* `IsWord.exists_cuts`, `Cuts.sign`, `Cuts.space`: the pieces that texts are made of.
* `isWord_iff`: what the names and the numerals are.
* `isWord_of_mem_tokenize`: a token that is a word in its source is one by itself.
-/

namespace Calculation.Source

open Text

variable {offset : Nat} {kind : TokenKind} {belongs : Char → Bool} {first : Char}
  {after rest front back : List Char} {tokens tokens' : List Token}

/-! ## One token -/

/-- The token of the kind that stands `offset` bytes into a source. -/
def Token.ofLexeme (kind : TokenKind) (offset : Nat) (lexeme : List Char) : Token :=
  ⟨kind, ⟨offset, offset + byteLength lexeme⟩, String.ofList lexeme⟩

/-- No fixed sign starts with a character that starts a run. -/
theorem runFrom?_of_mem_spellings :
    ∀ spelling ∈ TokenKind.spellings, (spelling.1.head?.bind runFrom?).isNone = true := by
  decide

theorem scan_of_run (run : runFrom? first = some (kind, belongs)) (after : List Char) :
    scan first after = ⟨kind, first :: after.takeWhile belongs, after.dropWhile belongs⟩ := by
  have unsigned : TokenKind.spellings.find?
      (fun spelling => spelling.1.isPrefixOf (first :: after)) = none := by
    rw [List.find?_eq_none]
    intro spelling stands fits
    have nonempty := TokenKind.spellings_ne_nil _ stands
    obtain ⟨tail, whole⟩ := List.isPrefixOf_iff_prefix.1 fits
    have starts : spelling.1.head? = some first := by
      cases text : spelling.1 with
      | nil => rw [text] at nonempty; cases nonempty
      | cons c _ => rw [text] at whole; cases whole; rfl
    have none := runFrom?_of_mem_spellings spelling stands
    rw [starts, Option.bind_some, run] at none
    cases none
  rw [scan, unsigned]
  simp only [run]

/-- The rest of a text starts with no character of the class. -/
def Stops (belongs : Char → Bool) (rest : List Char) : Prop :=
  ∀ c ∈ rest.head?, belongs c = false

theorem stops_cons {c : Char} (other : belongs c = false) (rest : List Char) :
    Stops belongs (c :: rest) := by
  rintro _ ⟨⟩
  exact other

theorem scan_run (run : runFrom? first = some (kind, belongs))
    (all : ∀ c ∈ after, belongs c = true) (stops : Stops belongs rest) :
    scan first (after ++ rest) = ⟨kind, first :: after, rest⟩ := by
  have none : rest.takeWhile belongs = [] ∧ rest.dropWhile belongs = rest := by
    cases rest with
    | nil => exact ⟨rfl, rfl⟩
    | cons c rest =>
        have stop : belongs c = false := stops c rfl
        simp [stop]
  rw [scan_of_run run, List.takeWhile_append_of_pos all, List.dropWhile_append_of_pos all, none.1,
    none.2, List.append_nil]

theorem tokensFrom_of_scan (found : scan first (after ++ rest) = ⟨kind, first :: after, rest⟩)
    (offset : Nat) :
    tokensFrom offset (first :: after ++ rest) = Token.ofLexeme kind offset (first :: after) ::
      tokensFrom (offset + byteLength (first :: after)) rest := by
  rw [List.cons_append, tokensFrom, found]
  rfl

/-! ## Pieces of a text -/

/-- What stands before the rest of a text is cut into the tokens, apart from blanks. -/
def Cuts (offset : Nat) (text rest : List Char) (tokens : List Token) : Prop :=
  significant (tokensFrom offset (text ++ rest)) =
    tokens ++ significant (tokensFrom (offset + byteLength text) rest)

/-- A piece that is all of a text. -/
theorem Cuts.significant_eq {text : List Char} (cuts : Cuts offset text [] tokens) :
    significant (tokensFrom offset text) = tokens := by
  rw [Cuts, List.append_nil, tokensFrom] at cuts
  exact cuts.trans (List.append_nil tokens)

theorem Cuts.append (first : Cuts offset front (back ++ rest) tokens)
    (second : Cuts (offset + byteLength front) back rest tokens') :
    Cuts offset (front ++ back) rest (tokens ++ tokens') := by
  rw [Cuts, List.append_assoc, first, second, byteLength_append, List.append_assoc, Nat.add_assoc]

theorem Cuts.of_scan (found : scan first (after ++ rest) = ⟨kind, first :: after, rest⟩)
    (solid : kind.isBlank = false) :
    Cuts offset (first :: after) rest [Token.ofLexeme kind offset (first :: after)] := by
  rw [Cuts, tokensFrom_of_scan found]
  exact significant_cons solid _

/-- A sign of one character, if the text up to the rest is not read as a longer one. -/
theorem Cuts.sign (found : scan first rest = ⟨kind, [first], rest⟩)
    (solid : kind.isBlank = false) :
    Cuts offset [first] rest [Token.ofLexeme kind offset [first]] :=
  .of_scan found solid

/-- A character that only keeps tokens apart. -/
def keepsApart (c : Char) : Bool := isLineBreak c || isSeparator c

theorem exists_run_of_keepsApart {c : Char} (apart : keepsApart c = true) :
    ∃ kind belongs, kind.isBlank = true ∧ belongs c = true ∧
      ∀ c, belongs c = true → runFrom? c = some (kind, belongs) := by
  rcases Bool.or_eq_true_iff.1 apart with breaks | separates
  · exact ⟨.lineBreak, isLineBreak, rfl, breaks, fun c breaks => if_pos breaks⟩
  · refine ⟨.blank, isSeparator, rfl, separates, fun c separates => ?_⟩
    have same : c = ' ' ∨ c = '\t' := by simpa [isSeparator] using separates
    rcases same with rfl | rfl <;> rfl

/-- A run of characters that keep tokens apart can be left out. -/
theorem significant_tokensFrom_run (blank : kind.isBlank = true)
    (run : ∀ c, belongs c = true → runFrom? c = some (kind, belongs)) (offset : Nat)
    (text : List Char) :
    significant (tokensFrom offset text) =
      significant (tokensFrom (offset + byteLength (text.takeWhile belongs))
        (text.dropWhile belongs)) := by
  cases text with
  | nil => rfl
  | cons c after =>
      cases within : belongs c with
      | false => simp [within, byteLength]
      | true =>
          rw [tokensFrom, scan_of_run (run c within), List.takeWhile_cons_of_pos within,
            List.dropWhile_cons_of_pos within, significant, List.filter_cons_of_neg]
          · rfl
          · rw [Token.isBlank, blank]
            exact Bool.false_ne_true

/-- A character that keeps tokens apart is none that means something. -/
theorem Cuts.apart {c : Char} (apart : keepsApart c = true) : Cuts offset [c] rest [] := by
  obtain ⟨kind, belongs, blank, within, run⟩ := exists_run_of_keepsApart apart
  rw [Cuts, List.singleton_append, significant_tokensFrom_run blank run,
    significant_tokensFrom_run blank run (offset + byteLength [c]) rest,
    List.takeWhile_cons_of_pos within, List.dropWhile_cons_of_pos within, List.nil_append,
    Nat.add_assoc, ← byteLength_append, List.singleton_append]

theorem Cuts.space : Cuts offset [' '] rest [] := .apart rfl

/-- A sign with spaces around it keeps two pieces apart. -/
theorem Cuts.between {middle : List Char} {sign : Token}
    (left : Cuts offset front (' ' :: (middle ++ ' ' :: (back ++ rest))) tokens)
    (centre : Cuts (offset + byteLength front + byteLength [' ']) middle (' ' :: (back ++ rest))
      [sign])
    (right : Cuts (offset + byteLength front + byteLength [' '] + byteLength middle +
      byteLength [' ']) back rest tokens') :
    Cuts offset (front ++ ' ' :: (middle ++ ' ' :: back)) rest (tokens ++ sign :: tokens') := by
  have behind : Cuts _ (middle ++ ([' '] ++ back)) rest ([sign] ++ ([] ++ tokens')) :=
    centre.append (Cuts.space.append right)
  have whole : Cuts offset (front ++ ([' '] ++ (middle ++ ([' '] ++ back)))) rest
      (tokens ++ ([] ++ ([sign] ++ ([] ++ tokens')))) := by
    refine Cuts.append ?_ (Cuts.space.append behind)
    simpa using left
  exact whole

/-! ## Words -/

/-- The text is a single name or numeral. -/
def IsWord (text : String) : Prop :=
  ∃ token, tokenize text = [token] ∧ (token.kind = .name ∨ token.kind = .numeral)

/-- The characters make up a single run of the kind. -/
def IsRun (kind : TokenKind) (text : List Char) : Prop :=
  ∃ first after belongs, text = first :: after ∧ runFrom? first = some (kind, belongs) ∧
    ∀ c ∈ after, belongs c = true

/-- The characters of names and numerals can all stand in a name. -/
theorem continuesName_of_run (word : kind = .name ∨ kind = .numeral)
    (run : runFrom? first = some (kind, belongs)) {c : Char} (within : belongs c = true) :
    continuesName c = true := by
  unfold runFrom? at run
  split at run
  · cases run
    rcases word with word | word <;> cases word
  · split at run
    · cases run
      rcases word with word | word <;> cases word
    · split at run
      · cases run
        exact within
      · split at run
        · cases run
          simp [continuesName, Char.isAlphanum, within]
        · cases run

theorem IsRun.scan {text : List Char} (word : kind = .name ∨ kind = .numeral)
    (run : IsRun kind text) (stops : Stops continuesName rest) :
    ∃ first after, text = first :: after ∧
      Source.scan first (after ++ rest) = ⟨kind, first :: after, rest⟩ := by
  obtain ⟨first, after, belongs, rfl, run, all⟩ := run
  refine ⟨first, after, rfl, scan_run run all fun c starts => ?_⟩
  cases within : belongs c with
  | false => rfl
  | true => exact (continuesName_of_run word run within).symm.trans (stops c starts)

theorem isRun_of_scan (word : kind = .name ∨ kind = .numeral)
    (found : (scan first after).kind = kind) : IsRun kind (scan first after).lexeme := by
  revert found
  unfold scan
  split
  · rename_i spelling kind' stands
    intro found
    have signs : ∀ spelling ∈ TokenKind.spellings,
        spelling.2 ≠ .name ∧ spelling.2 ≠ .numeral := by decide
    have other := signs _ (List.mem_of_find?_eq_some stands)
    rcases word with word | word
    · exact (other.1 (found.trans word)).elim
    · exact (other.2 (found.trans word)).elim
  · split
    · rename_i kind' belongs run
      rintro rfl
      exact ⟨first, _, belongs, rfl, run, fun c => List.mem_takeWhile_imp⟩
    · intro found
      rcases word with word | word <;> cases found.trans word

theorem isRun_of_mem_tokensFrom {token : Token} {text : List Char}
    (word : token.kind = .name ∨ token.kind = .numeral) (stands : token ∈ tokensFrom offset text) :
    IsRun token.kind token.lexeme.toList := by
  fun_induction tokensFrom offset text with
  | case1 => cases stands
  | case2 offset first after found stop ih =>
      rcases List.mem_cons.1 stands with rfl | later
      · rw [String.toList_ofList]
        exact isRun_of_scan word rfl
      · exact ih later

theorem isWord_iff {text : String} :
    IsWord text ↔ ∃ kind, (kind = .name ∨ kind = .numeral) ∧ IsRun kind text.toList := by
  constructor
  · rintro ⟨token, whole, word⟩
    have same := flatMap_lexeme_tokenize text
    have run : IsRun token.kind token.lexeme.toList :=
      isRun_of_mem_tokensFrom word (List.mem_of_mem_head? (by rw [← tokenize, whole]; rfl))
    rw [whole, List.flatMap_singleton] at same
    exact ⟨token.kind, word, same ▸ run⟩
  · rintro ⟨kind, word, run⟩
    have ended : Stops continuesName [] := nofun
    obtain ⟨first, after, same, found⟩ := run.scan word ended
    have cut := tokensFrom_of_scan found 0
    rw [List.append_nil, ← same, tokensFrom] at cut
    exact ⟨_, cut, word⟩

theorem isWord_of_mem_tokenize {token : Token} {source : String}
    (word : token.kind = .name ∨ token.kind = .numeral) (stands : token ∈ tokenize source) :
    IsWord token.lexeme :=
  isWord_iff.2 ⟨token.kind, word, isRun_of_mem_tokensFrom word stands⟩

/-- A word is cut off as one token, unless what comes next goes on with it. -/
theorem IsWord.exists_cuts {text : String} (word : IsWord text) (offset : Nat)
    (stops : Stops continuesName rest) :
    ∃ token, (token.kind = .name ∨ token.kind = .numeral) ∧ token.lexeme = text ∧
      Cuts offset text.toList rest [token] := by
  obtain ⟨kind, word, run⟩ := isWord_iff.1 word
  obtain ⟨first, after, same, found⟩ := run.scan word stops
  refine ⟨Token.ofLexeme kind offset text.toList, word, String.ofList_toList, ?_⟩
  rw [same]
  refine .of_scan found ?_
  rcases word with rfl | rfl <;> rfl

end Calculation.Source
