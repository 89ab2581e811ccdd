import Calculation.Source.Token

/-!
The tokens of a source text.

`scan` reads one token, always the longest that the text starts with, and `tokenize` reads them one
after the other until nothing is left.  No text is refused: a character that starts no other token
is a token of kind `unknown`.  The tokens therefore tile the text (`flatMap_lexeme_tokenize`).
-/

namespace Calculation.Source

/-! ## Classes of characters -/

def isLineBreak (c : Char) : Bool := c == '\n' || c == '\r'

/-- Whether the character separates tokens within a line. -/
def isSeparator (c : Char) : Bool := c == ' ' || c == '\t'

/-- Whether a name can start with the character.  Names are made of ASCII characters alone. -/
def startsName (c : Char) : Bool := c.isAlpha || c == '_'

/-- Whether the character can stand in a name after its first one. -/
def continuesName (c : Char) : Bool := c.isAlphanum || c == '_' || c == '\''

/-- The kind of token that is a run of characters and starts with the given one, and the class that
its further characters belong to. -/
def runFrom? (first : Char) : Option (TokenKind × (Char → Bool)) :=
  if isLineBreak first then some (.lineBreak, isLineBreak)
  else if isSeparator first then some (.blank, isSeparator)
  else if startsName first then some (.name, continuesName)
  else if first.isDigit then some (.numeral, Char.isDigit)
  else none

/-! ## One token -/

/-- One token cut off the front of a text: its kind, its characters and the text after it. -/
structure Scan where
  kind : TokenKind
  lexeme : List Char
  rest : List Char

/-- Cuts the longest token off the text that starts with `first` and goes on with `after`. -/
def scan (first : Char) (after : List Char) : Scan :=
  match TokenKind.spellings.find? (fun spelling => spelling.1.isPrefixOf (first :: after)) with
  | some (spelling, kind) => ⟨kind, spelling, after.drop (spelling.length - 1)⟩
  | none =>
    match runFrom? first with
    | some (kind, belongs) => ⟨kind, first :: after.takeWhile belongs, after.dropWhile belongs⟩
    | none => ⟨.unknown, [first], after⟩

/-- What is left after a token is never longer than what followed its first character. -/
theorem scan_rest_length (first : Char) (after : List Char) :
    (scan first after).rest.length ≤ after.length := by
  unfold scan
  split
  · simp
  · split
    · exact (List.dropWhile_sublist _).length_le
    · simp

/-- No spelling of a fixed sign is empty. -/
theorem TokenKind.spellings_ne_nil :
    ∀ spelling ∈ TokenKind.spellings, 0 < spelling.1.length := by
  decide

/-- Nothing is lost and nothing added by cutting a token off. -/
theorem lexeme_append_rest (first : Char) (after : List Char) :
    (scan first after).lexeme ++ (scan first after).rest = first :: after := by
  unfold scan
  split
  · rename_i spelling kind found
    have nonempty := TokenKind.spellings_ne_nil _ (List.mem_of_find?_eq_some found)
    have fits := List.find?_some found
    obtain ⟨tail, whole⟩ := List.isPrefixOf_iff_prefix.1 fits
    cases spelling with
    | nil => simp at nonempty
    | cons c spelling =>
      simp only [List.cons_append, List.cons.injEq] at whole
      obtain ⟨rfl, rfl⟩ := whole
      simp
  · split <;> simp [List.takeWhile_append_dropWhile]

/-- A token has at least one character. -/
theorem scan_lexeme_ne_nil (first : Char) (after : List Char) :
    (scan first after).lexeme ≠ [] := by
  intro empty
  have whole := lexeme_append_rest first after
  have shorter := scan_rest_length first after
  rw [empty, List.nil_append] at whole
  rw [whole, List.length_cons] at shorter
  omega

/-! ## All tokens -/

/-- The tokens of a text that stands `offset` bytes into the source. -/
def tokensFrom (offset : Nat) : List Char → List Token
  | [] => []
  | first :: after =>
    let found := scan first after
    let stop := offset + Text.byteLength found.lexeme
    ⟨found.kind, ⟨offset, stop⟩, String.ofList found.lexeme⟩ :: tokensFrom stop found.rest
termination_by text => text.length
decreasing_by exact Nat.lt_succ_of_le (scan_rest_length first after)

def tokenize (source : String) : List Token := tokensFrom 0 source.toList

/-- The lexemes of the tokens, one after the other, are the text. -/
theorem flatMap_lexeme_tokensFrom (offset : Nat) (text : List Char) :
    (tokensFrom offset text).flatMap (fun token => token.lexeme.toList) = text := by
  fun_induction tokensFrom offset text with
  | case1 => rfl
  | case2 offset first after found stop ih =>
    simp only [List.flatMap_cons, String.toList_ofList, ih]
    exact lexeme_append_rest first after

/-- The lexemes of the tokens of a source, one after the other, are the source. -/
theorem flatMap_lexeme_tokenize (source : String) :
    (tokenize source).flatMap (fun token => token.lexeme.toList) = source.toList :=
  flatMap_lexeme_tokensFrom 0 source.toList

end Calculation.Source
