import Calculation.Text.Slice
import Calculation.Proofs.Lexing

/-!
Every token is the longest that the rest of its text starts with.

What tokens can look like is said apart from how they are cut off (`TokenKind.Spells`).  Which token
a text starts with follows from that alone: the longest, and one of kind `unknown` only if there is
no other (`IsLongest`).  This still holds of a text that is cut off anywhere behind the token.  So a
piece of a source between the borders of its tokens has the tokens that it has in the source.

* `scan_isLongest`, `IsLongest.unique`: what is cut off is the only token that may be.
* `exists_of_tokensFrom_eq_append`: where tokens are split, so is the text.
* `tokenize_tiles`: the tokens of a source, and of any piece of it that tokens make up.
-/

namespace Calculation.Source

open Text

/-! ## What tokens look like -/

/-- The kinds that are runs of characters, with the class of the first character and the class of
those that follow. -/
def TokenKind.runs : List (TokenKind × (Char → Bool) × (Char → Bool)) := [
  (lineBreak, isLineBreak, isLineBreak), (blank, isSeparator, isSeparator),
  (name, startsName, continuesName), (numeral, Char.isDigit, Char.isDigit)]

/-- `kind.Spells text`: a token of the kind can be the text. -/
inductive TokenKind.Spells : TokenKind → List Char → Prop
  | sign {kind : TokenKind} {text : List Char} (listed : (text, kind) ∈ spellings) :
      Spells kind text
  | run {kind : TokenKind} {starts belongs : Char → Bool} {first : Char} {after : List Char}
      (listed : (kind, starts, belongs) ∈ runs) (begins : starts first = true)
      (all : ∀ c ∈ after, belongs c = true) : Spells kind (first :: after)
  | unknown {c : Char} (inLine : c ≠ '\n') : Spells unknown [c]

/-- The text starts with the lexeme, which is one of the kind, and with no longer one of any kind.
Kinds that the lexeme could also be of give way, and so does `unknown` to any other. -/
structure IsLongest (kind : TokenKind) (lexeme text : List Char) : Prop where
  spells : kind.Spells lexeme
  starts : lexeme <+: text
  longest : ∀ other piece, TokenKind.Spells other piece → piece <+: text →
    piece.length ≤ lexeme.length
  preferred : ∀ other, TokenKind.Spells other lexeme → other = kind ∨ other = .unknown

variable {offset : Nat} {kind other : TokenKind} {belongs : Char → Bool} {first : Char}
  {after text piece lexeme : List Char} {tokens front back : List Token}

/-- No sign is written with no characters. -/
theorem TokenKind.Spells.ne_nil (spells : kind.Spells text) : text ≠ [] := by
  cases spells with
  | sign listed => exact List.length_pos_iff.1 (TokenKind.spellings_ne_nil _ listed)
  | run => exact List.cons_ne_nil _ _
  | unknown => exact List.cons_ne_nil _ _

namespace IsLongest

/-- A text starts with one longest token. -/
theorem unique {lexeme' : List Char} (best : IsLongest kind lexeme text)
    (best' : IsLongest other lexeme' text) : kind = other ∧ lexeme = lexeme' := by
  have le : lexeme'.length ≤ lexeme.length := best.longest other lexeme' best'.spells best'.starts
  have ge : lexeme.length ≤ lexeme'.length := best'.longest kind lexeme best.spells best.starts
  have same : lexeme = lexeme' :=
    (List.prefix_of_prefix_length_le best.starts best'.starts ge).eq_of_length_le le
  subst same
  refine ⟨?_, rfl⟩
  rcases best.preferred other best'.spells with kinds | last
  · exact kinds.symm
  · rcases best'.preferred kind best.spells with kinds | last'
    · exact kinds
    · exact last'.trans last.symm

/-- What comes behind the lexeme may be missing. -/
theorem of_prefix {shorter : List Char} (best : IsLongest kind lexeme text)
    (starts : lexeme <+: shorter) (cut : shorter <+: text) : IsLongest kind lexeme shorter where
  spells := best.spells
  starts := starts
  longest other piece spells begins := best.longest other piece spells (begins.trans cut)
  preferred := best.preferred

/-- A token that is unknown is all that the text could start with, and no more than a character. -/
theorem length_eq_one (best : IsLongest .unknown lexeme text) : lexeme.length = 1 := by
  cases best.spells with
  | sign listed =>
      have known : ∀ sign ∈ TokenKind.spellings, sign.2 ≠ .unknown := by decide
      exact absurd rfl (known _ listed)
  | run listed => simp [TokenKind.runs] at listed
  | unknown => rfl

theorem kind_eq_unknown_iff (best : IsLongest kind lexeme text) :
    kind = .unknown ↔
      ∀ other piece, TokenKind.Spells other piece → piece <+: text → other = .unknown := by
  constructor
  · intro same other piece spells starts
    subst same
    have short := best.longest other piece spells starts
    rw [best.length_eq_one] at short
    have whole : piece = lexeme := by
      apply (List.prefix_of_prefix_length_le starts best.starts _).eq_of_length_le
      · rw [best.length_eq_one]
        exact List.length_pos_iff.2 spells.ne_nil
      · rw [best.length_eq_one]
        exact short
    subst whole
    rcases best.preferred other spells with same | same <;> exact same
  · intro none
    exact none kind lexeme best.spells best.starts

end IsLongest

/-! ## One token -/

/-- A character that starts a word does not keep tokens apart. -/
theorem not_apart_of_word (word : startsName first = true ∨ first.isDigit = true) :
    isLineBreak first = false ∧ isSeparator first = false := by
  constructor
  · cases breaks : isLineBreak first with
    | false => rfl
    | true =>
        have same : first = '\n' ∨ first = '\r' := by simpa [isLineBreak] using breaks
        rcases same with rfl | rfl <;> rcases word with word | word <;> cases word
  · cases separates : isSeparator first with
    | false => rfl
    | true =>
        have same : first = ' ' ∨ first = '\t' := by simpa [isSeparator] using separates
        rcases same with rfl | rfl <;> rcases word with word | word <;> cases word

/-- No name starts with a digit. -/
theorem startsName_of_isDigit (digit : first.isDigit = true) : startsName first = false := by
  have digits : first.val ≤ '9'.val := of_decide_eq_true (Bool.and_eq_true_iff.1 digit).2
  have upper : first.isUpper = false :=
    decide_eq_false fun upper => absurd (UInt32.le_trans upper.1 digits) (by decide)
  have lower : first.isLower = false :=
    Bool.and_eq_false_imp.2 fun lower =>
      absurd (UInt32.le_trans (of_decide_eq_true lower) digits) (by decide)
  have underscore : (first == '_') = false :=
    beq_false_of_ne fun same => absurd digits (same ▸ by decide)
  rw [startsName, underscore, Bool.or_false]
  exact Bool.or_eq_false_iff.2 ⟨upper, lower⟩

/-- The classes of first characters are disjoint, so that the kind of a run is known by them. -/
theorem runFrom?_of_mem_runs {starts : Char → Bool}
    (listed : (kind, starts, belongs) ∈ TokenKind.runs) (begins : starts first = true) :
    runFrom? first = some (kind, belongs) := by
  simp only [TokenKind.runs, List.mem_cons, Prod.mk.injEq, List.not_mem_nil, or_false] at listed
  rcases listed with ⟨rfl, rfl, rfl⟩ | ⟨rfl, rfl, rfl⟩ | ⟨rfl, rfl, rfl⟩ | ⟨rfl, rfl, rfl⟩
  · rw [runFrom?, if_pos begins]
  · have same : first = ' ' ∨ first = '\t' := by simpa [isSeparator] using begins
    rcases same with rfl | rfl <;> rfl
  · have apart := not_apart_of_word (.inl begins)
    simp only [runFrom?, apart.1, apart.2, begins, Bool.false_eq_true, if_false, if_true]
  · have apart := not_apart_of_word (.inr begins)
    have unnamed := startsName_of_isDigit begins
    simp only [runFrom?, apart.1, apart.2, unnamed, begins, Bool.false_eq_true, if_false, if_true]

theorem exists_mem_runs_of_runFrom? (run : runFrom? first = some (kind, belongs)) :
    ∃ starts, (kind, starts, belongs) ∈ TokenKind.runs ∧ starts first = true := by
  unfold runFrom? at run
  split at run
  · rename_i begins
    cases run
    exact ⟨isLineBreak, by simp [TokenKind.runs], begins⟩
  · split at run
    · rename_i begins
      cases run
      exact ⟨isSeparator, by simp [TokenKind.runs], begins⟩
    · split at run
      · rename_i begins
        cases run
        exact ⟨startsName, by simp [TokenKind.runs], begins⟩
      · split at run
        · rename_i begins
          cases run
          exact ⟨Char.isDigit, by simp [TokenKind.runs], begins⟩
        · cases run

/-- No sign starts with one that stands later in the list. -/
theorem pairwise_spellings :
    TokenKind.spellings.Pairwise fun sign later => ¬ sign.1 <+: later.1 := by
  decide

/-- The first sign in the list that a text starts with is the longest. -/
theorem eq_or_length_lt_of_find? {sign : List Char × TokenKind}
    (found : TokenKind.spellings.find? (fun spelling => spelling.1.isPrefixOf text) = some sign)
    (listed : (piece, other) ∈ TokenKind.spellings) (starts : piece <+: text) :
    (piece, other) = sign ∨ piece.length < sign.1.length := by
  obtain ⟨fits, before, behind, whole, passed⟩ := List.find?_eq_some_iff_append.1 found
  have ordered := pairwise_spellings
  rw [whole] at listed ordered
  rcases List.mem_append.1 listed with earlier | later
  · have unfit := passed _ earlier
    rw [List.isPrefixOf_iff_prefix.2 starts] at unfit
    cases unfit
  · rcases List.mem_cons.1 later with same | later
    · exact .inl same
    · refine .inr (Nat.lt_of_not_le fun le => ?_)
      have apart := (List.pairwise_cons.1 (List.pairwise_append.1 ordered).2.1).1 _ later
      exact apart (List.prefix_of_prefix_length_le (List.isPrefixOf_iff_prefix.1 fits) starts le)

/-- Nothing that the text starts with is longer than the token that is cut off, or is as long and of
a kind that it gives way to. -/
theorem TokenKind.Spells.le_scan (spells : other.Spells piece) (starts : piece <+: first :: after) :
    piece.length ≤ (scan first after).lexeme.length ∧
      (piece = (scan first after).lexeme →
        other = (scan first after).kind ∨ other = .unknown) := by
  cases spells with
  | sign listed =>
      cases found : TokenKind.spellings.find? fun spelling =>
          spelling.1.isPrefixOf (first :: after) with
      | none =>
          have unfit := List.find?_eq_none.1 found _ listed
          exact absurd (List.isPrefixOf_iff_prefix.2 starts) unfit
      | some sign =>
          have cut : scan first after = ⟨sign.2, sign.1, after.drop (sign.1.length - 1)⟩ := by
            rw [scan, found]
          rw [cut]
          rcases eq_or_length_lt_of_find? found listed starts with rfl | shorter
          · exact ⟨Nat.le_refl _, fun _ => .inl rfl⟩
          · exact ⟨Nat.le_of_lt shorter, fun same => absurd shorter (same ▸ Nat.lt_irrefl _)⟩
  | run listed begins all =>
      obtain ⟨rfl, further⟩ := List.cons_prefix_cons.1 starts
      rw [scan_of_run (runFrom?_of_mem_runs listed begins)]
      refine ⟨Nat.succ_le_succ ?_, fun _ => .inl rfl⟩
      obtain ⟨rest, rfl⟩ := further
      rw [List.takeWhile_append_of_pos all, List.length_append]
      exact Nat.le_add_right _ _
  | unknown inLine =>
      have positive := List.length_pos_iff.2 (scan_lexeme_ne_nil first after)
      exact ⟨positive, fun _ => .inr rfl⟩

/-- What is cut off is a token of its kind. -/
theorem spells_scan (first : Char) (after : List Char) :
    (scan first after).kind.Spells (scan first after).lexeme := by
  unfold scan
  split
  · rename_i spelling kind found
    exact .sign (List.mem_of_find?_eq_some found)
  · split
    · rename_i kind belongs run
      obtain ⟨starts, listed, begins⟩ := exists_mem_runs_of_runFrom? run
      exact .run listed begins fun c => List.mem_takeWhile_imp
    · rename_i other
      apply TokenKind.Spells.unknown
      intro same
      subst same
      cases other

theorem scan_isLongest (first : Char) (after : List Char) :
    IsLongest (scan first after).kind (scan first after).lexeme (first :: after) where
  spells := spells_scan first after
  starts := ⟨_, lexeme_append_rest first after⟩
  longest _ _ spells starts := (spells.le_scan starts).1
  preferred _ spells := (spells.le_scan ⟨_, lexeme_append_rest first after⟩).2 rfl

/-- A token goes on from the first character of its text. -/
theorem exists_scan_eq (first : Char) (after : List Char) : ∃ kind more rest,
    after = more ++ rest ∧ scan first after = ⟨kind, first :: more, rest⟩ := by
  have whole := lexeme_append_rest first after
  cases cut : scan first after with
  | mk kind lexeme rest =>
      rw [cut] at whole
      cases lexeme with
      | nil => exact absurd (congrArg Scan.lexeme cut) (scan_lexeme_ne_nil first after)
      | cons c more =>
          obtain ⟨rfl, same⟩ := List.cons.inj whole
          exact ⟨kind, more, rest, same.symm, rfl⟩

/-- What a text starts with is cut off if no longer token could be. -/
theorem IsLongest.scan_eq {rest : List Char}
    (best : IsLongest kind (first :: after) (first :: (after ++ rest))) :
    scan first (after ++ rest) = ⟨kind, first :: after, rest⟩ := by
  obtain ⟨kinds, lexemes⟩ := (scan_isLongest first (after ++ rest)).unique best
  have whole := lexeme_append_rest first (after ++ rest)
  rw [lexemes, List.cons_append, List.cons.injEq] at whole
  cases cut : scan first (after ++ rest)
  rw [cut] at kinds lexemes whole
  cases kinds
  cases lexemes
  cases List.append_cancel_left whole.2
  rfl

/-- A token is cut off in the same way if the text ends somewhere behind it. -/
theorem scan_of_append {more rest : List Char}
    (found : scan first (after ++ (rest ++ more)) = ⟨kind, first :: after, rest ++ more⟩) :
    scan first (after ++ rest) = ⟨kind, first :: after, rest⟩ := by
  have best := scan_isLongest first (after ++ (rest ++ more))
  rw [found] at best
  refine IsLongest.scan_eq (best.of_prefix (List.prefix_append (first :: after) rest) ⟨more, ?_⟩)
  rw [List.cons_append, List.append_assoc]

/-! ## Tokens of a piece -/

/-- The token in a text that stands further on in a source. -/
def Token.shift (offset : Nat) (token : Token) : Token :=
  { token with span := token.span.shift offset }

/-- The tokens do not depend on where their text stands. -/
theorem tokensFrom_add (offset distance : Nat) (text : List Char) :
    tokensFrom (offset + distance) text = (tokensFrom offset text).map (Token.shift distance) := by
  fun_induction tokensFrom offset text with
  | case1 => rw [tokensFrom, List.map_nil]
  | case2 offset first after found stop ih =>
      have moved : offset + distance + byteLength found.lexeme = stop + distance :=
        Nat.add_right_comm ..
      simp only [tokensFrom, List.map_cons, Token.shift, Span.shift, moved, ih, found, stop]

/-- A text is split where its tokens are. -/
theorem exists_of_tokensFrom_eq_append (parts : tokensFrom offset text = front ++ back) :
    ∃ head tail, text = head ++ tail ∧ tokensFrom offset head = front ∧
      tokensFrom (offset + byteLength head) tail = back := by
  induction front generalizing offset text with
  | nil => exact ⟨[], text, rfl, by rw [tokensFrom], parts⟩
  | cons token front ih =>
      cases text with
      | nil =>
          rw [tokensFrom] at parts
          cases parts
      | cons first after =>
          obtain ⟨kind, more, rest, rfl, cut⟩ := exists_scan_eq first after
          obtain ⟨rfl, others⟩ := List.cons.inj (parts.symm.trans (tokensFrom_of_scan cut offset))
          obtain ⟨head, tail, rfl, heads, tails⟩ := ih others.symm
          refine ⟨first :: more ++ head, tail, ?_, ?_, ?_⟩
          · rw [List.append_assoc, List.cons_append]
          · rw [tokensFrom_of_scan (scan_of_append cut), heads]
          · rw [byteLength_append, ← Nat.add_assoc, tails]

/-! ## Tokens and their text -/

/-- The tokens stand one after the other from `start` on, each of them takes up some of the source,
and the last one ends at `stop`. -/
def Tile (start : Nat) (tokens : List Token) (stop : Nat) : Prop :=
  match tokens with
  | [] => start = stop
  | token :: rest =>
    token.span.start = start ∧ start < token.span.stop ∧ Tile token.span.stop rest stop

theorem tile_tokensFrom (offset : Nat) (text : List Char) :
    Tile offset (tokensFrom offset text) (offset + byteLength text) := by
  fun_induction tokensFrom offset text with
  | case1 => rfl
  | case2 offset first after found stop ih =>
      have some := byteLength_pos (scan_lexeme_ne_nil first after)
      have whole : stop + byteLength found.rest = offset + byteLength (first :: after) := by
        rw [← lexeme_append_rest first after, byteLength_append, Nat.add_assoc]
      exact ⟨rfl, Nat.lt_add_of_pos_right some, whole ▸ ih⟩

theorem Tile.endOf_eq {start stop : Nat} (tile : Tile start tokens stop) (some : tokens ≠ []) :
    endOf tokens = stop := by
  induction tokens generalizing start with
  | nil => exact absurd rfl some
  | cons token rest ih =>
      cases rest with
      | nil => exact tile.2.2
      | cons next rest =>
          rw [endOf, List.getLast?_cons_cons]
          exact ih tile.2.2 (List.cons_ne_nil _ _)

/-- A source ends with its last token. -/
theorem endOf_tokensFrom_zero (text : List Char) : endOf (tokensFrom 0 text) = byteLength text := by
  have tile := tile_tokensFrom 0 text
  rw [Nat.zero_add] at tile
  by_cases none : tokensFrom 0 text = []
  · rw [none] at tile ⊢
    exact tile
  · exact tile.endOf_eq none

/-- The token is what the source holds in its region, and the longest that the rest of the source
starts with from there. -/
structure Token.Fits (source : List Char) (token : Token) : Prop where
  lexeme_ne : token.lexeme ≠ ""
  slice : slice? source token.span = some token.lexeme.toList
  longest : ∃ before remaining, splitBytes? token.span.start source = some (before, remaining) ∧
    IsLongest token.kind token.lexeme.toList remaining ∧
    -- what starts no other token is a token of one character
    ((∀ kind piece, TokenKind.Spells kind piece → piece <+: remaining → kind = .unknown) ↔
      token.kind = .unknown) ∧
    (token.kind = .unknown → token.lexeme.toList.length = 1)

/-- A token stands where the tokens before it end. -/
theorem exists_of_mem_tokensFrom {token : Token} (stands : token ∈ tokensFrom offset text) :
    ∃ kind before lexeme rest, text = before ++ (lexeme ++ rest) ∧
      token = .ofLexeme kind (offset + byteLength before) lexeme ∧
      IsLongest kind lexeme (lexeme ++ rest) := by
  obtain ⟨front, back, parts⟩ := List.append_of_mem stands
  obtain ⟨before, tail, rfl, -, here⟩ := exists_of_tokensFrom_eq_append parts
  cases tail with
  | nil =>
      rw [tokensFrom] at here
      cases here
  | cons first after =>
      have best := scan_isLongest first after
      obtain ⟨kind, more, rest, rfl, cut⟩ := exists_scan_eq first after
      rw [cut] at best
      obtain ⟨same, -⟩ := List.cons.inj (here.symm.trans (tokensFrom_of_scan cut _))
      exact ⟨kind, before, first :: more, rest, rfl, same, best⟩

theorem fits_of_mem_tokenize {source : String} {token : Token} (stands : token ∈ tokenize source) :
    token.Fits source.toList := by
  obtain ⟨kind, before, lexeme, rest, whole, rfl, best⟩ := exists_of_mem_tokensFrom stands
  have split : splitBytes? (0 + byteLength before) source.toList = some (before, lexeme ++ rest) :=
    splitBytes?_eq_some_iff.2 ⟨whole, Nat.zero_add _⟩
  constructor
  case lexeme_ne =>
    intro none
    have none : lexeme = [] := String.ofList_injective none
    exact best.spells.ne_nil none
  case slice =>
    rw [slice?_eq_some_iff]
    refine ⟨before, rest, ?_, ?_⟩
    · rw [Token.ofLexeme, String.toList_ofList, whole]
    · rw [Token.ofLexeme, String.toList_ofList, Nat.zero_add]
  case longest =>
    refine ⟨before, lexeme ++ rest, split, ?_⟩
    rw [Token.ofLexeme, String.toList_ofList]
    refine ⟨best, best.kind_eq_unknown_iff.symm, fun same => ?_⟩
    subst same
    exact best.length_eq_one

/-- A run of tokens takes up a piece of the source, and is what the piece is cut into. -/
theorem exists_piece {source : String} {before run after : List Token}
    (parts : tokenize source = before ++ (run ++ after)) :
    ∃ start piece, endOf before = start ∧ endOf (before ++ run) = start + byteLength piece ∧
      slice? source.toList ⟨start, start + byteLength piece⟩ = some piece ∧
      tokensFrom start piece = run := by
  rw [← List.append_assoc] at parts
  obtain ⟨front, back, whole, fronts, -⟩ := exists_of_tokensFrom_eq_append parts
  obtain ⟨head, piece, rfl, heads, pieces⟩ := exists_of_tokensFrom_eq_append fronts
  refine ⟨byteLength head, piece, ?_, ?_, ?_, ?_⟩
  · rw [← heads, endOf_tokensFrom_zero]
  · rw [← fronts, endOf_tokensFrom_zero, byteLength_append]
  · apply slice?_eq_some_iff.2
    exact ⟨head, back, by rw [whole, List.append_assoc], rfl⟩
  · rwa [Nat.zero_add] at pieces

/-- A piece that stands alone has the tokens that it has where it stands in a source. -/
theorem map_shift_tokenize (start : Nat) (piece : List Char) :
    (tokenize (String.ofList piece)).map (Token.shift start) = tokensFrom start piece := by
  rw [tokenize, String.toList_ofList, ← tokensFrom_add, Nat.zero_add]

/-- The tokens of a source tile it, each of them is the longest that the rest of the source starts
with, and what a run of them takes up is cut into the same tokens when it stands alone. -/
theorem tokenize_tiles (source : String) :
    Tile 0 (tokenize source) (byteLength source.toList) ∧
      (∀ token ∈ tokenize source, token.Fits source.toList) ∧
      ∀ before run after, tokenize source = before ++ (run ++ after) →
        ∃ piece, slice? source.toList ⟨endOf before, endOf (before ++ run)⟩ = some piece ∧
          (tokenize (String.ofList piece)).map (Token.shift (endOf before)) = run := by
  refine ⟨?_, fun token => fits_of_mem_tokenize, fun before run after parts => ?_⟩
  · have tile := tile_tokensFrom 0 source.toList
    rwa [Nat.zero_add] at tile
  · obtain ⟨start, piece, starts, stops, cut, tokens⟩ := exists_piece parts
    subst starts
    refine ⟨piece, ?_, ?_⟩
    · rwa [stops]
    · rw [map_shift_tokenize, tokens]

end Calculation.Source
