import Calculation.Proofs.Parsing
import Calculation.Proofs.Tiling

/-!
Tokens that a text which is read can start with.

Whether tokens are derived depends on their kinds alone (`RespectsKinds`).  Tokens that are derived
can be written down, since with a space behind it a token of a source is cut off by itself, whatever
comes next (`Token.Standalone`).  So tokens can be continued to a text that is read (`Continuable`)
if they can be continued to such tokens that are derived.

* `standalone_of_mem_tokenize`: the tokens of a source can be written down elsewhere.
* `exists_cuts_spaced`: tokens that are written down are cut off again.
* `Reads.continuable`: tokens that can be continued.
* `Reads.continuable_iff_begins`: they are those that a text starts with which the grammar derives.
-/

namespace Calculation.Source

open Text

variable {α : Type} {tokens tokens' front behind : List Token} {kind : TokenKind}

/-! ## Kinds of tokens -/

def kinds (tokens : List Token) : List TokenKind := tokens.map Token.kind

@[simp] theorem kinds_nil : kinds [] = [] := rfl

@[simp] theorem kinds_cons (token : Token) (tokens : List Token) :
    kinds (token :: tokens) = token.kind :: kinds tokens := rfl

@[simp] theorem kinds_append (front back : List Token) :
    kinds (front ++ back) = kinds front ++ kinds back := List.map_append

theorem kinds_eq_cons_iff {token : Token} :
    kinds tokens' = kinds (token :: tokens) ↔
      ∃ token' rest, tokens' = token' :: rest ∧ token'.kind = token.kind ∧
        kinds rest = kinds tokens :=
  List.map_eq_cons_iff

theorem kinds_eq_nil_iff : kinds tokens = kinds [] ↔ tokens = [] := List.map_eq_nil_iff

theorem kinds_eq_append_iff {first second : List Token} :
    kinds tokens = kinds (first ++ second) ↔
      ∃ front back, tokens = front ++ back ∧ kinds front = kinds first ∧
        kinds back = kinds second := by
  rw [kinds_append]
  exact List.map_eq_append_iff

/-- What is next is the first token that means something. -/
theorem peekKind?_eq_head? (tokens : List Token) :
    peekKind? tokens = (kinds (significant tokens)).head? := by
  rw [significant_eq, peekKind?]
  cases next? tokens <;> rfl

/-- Which tokens are derived can be told from their kinds. -/
def RespectsKinds (derives : List Token → α → Prop) : Prop :=
  ∀ tokens tokens' value, derives tokens value → kinds tokens' = kinds tokens →
    ∃ value', derives tokens' value'

theorem DerivesAtom.of_kinds {leaf : Atom} (derived : DerivesAtom tokens leaf)
    (same : kinds tokens' = kinds tokens) : ∃ leaf', DerivesAtom tokens' leaf' := by
  rcases derived with ⟨word⟩
  rcases kinds_eq_cons_iff.1 same with ⟨token, rest, rfl, kind, none⟩
  rw [kinds_eq_nil_iff.1 none]
  exact ⟨_, ⟨by rw [kind]; exact word⟩⟩

theorem Phrase.Derives.of_kinds {phrase : Phrase} {tree : Tree}
    (derived : phrase.Derives tokens tree) (same : kinds tokens' = kinds tokens) :
    ∃ tree', phrase.Derives tokens' tree' := by
  induction derived generalizing tokens' with
  | atom derived =>
      rcases derived.of_kinds same with ⟨leaf, derived⟩
      exact ⟨_, .atom derived⟩
  | negation minus _ ih =>
      rcases kinds_eq_cons_iff.1 same with ⟨sign, rest, rfl, kind, others⟩
      rcases ih others with ⟨operand, factor⟩
      exact ⟨_, .negation (kind.trans minus) factor⟩
  | parenthesis opens _ closes ih =>
      rcases kinds_eq_cons_iff.1 same with ⟨opening, rest, rfl, kind, others⟩
      rcases kinds_eq_append_iff.1 others with ⟨inside, last, rfl, within, ended⟩
      rcases kinds_eq_cons_iff.1 ended with ⟨closing, rest, rfl, kind', none⟩
      rcases ih within with ⟨inner, expression⟩
      rw [kinds_eq_nil_iff.1 none]
      exact ⟨_, .parenthesis (kind.trans opens) expression (kind'.trans closes)⟩
  | factor _ ih =>
      rcases ih same with ⟨tree, factor⟩
      exact ⟨tree, .factor factor⟩
  | term _ ih =>
      rcases ih same with ⟨tree, term⟩
      exact ⟨tree, .term term⟩
  | product _ stands _ ihl ihr =>
      rcases kinds_eq_append_iff.1 same with ⟨front, rest, rfl, left, others⟩
      rcases kinds_eq_cons_iff.1 others with ⟨sign, back, rfl, kind, right⟩
      rcases ihl left with ⟨lhs, term⟩
      rcases ihr right with ⟨rhs, factor⟩
      exact ⟨_, .product term (by rw [kind]; exact stands) factor⟩
  | sum _ stands _ ihl ihr =>
      rcases kinds_eq_append_iff.1 same with ⟨front, rest, rfl, left, others⟩
      rcases kinds_eq_cons_iff.1 others with ⟨sign, back, rfl, kind, right⟩
      rcases ihl left with ⟨lhs, expression⟩
      rcases ihr right with ⟨rhs, term⟩
      exact ⟨_, .sum expression (by rw [kind]; exact stands) term⟩

theorem Phrase.respectsKinds (phrase : Phrase) : RespectsKinds phrase.Derives :=
  fun _ _ _ derived same => derived.of_kinds same

theorem respectsKinds_comparison : RespectsKinds DerivesComparison := by
  rintro _ tokens' _ ⟨left, stands, right⟩ same
  rcases kinds_eq_append_iff.1 same with ⟨front, rest, rfl, first, others⟩
  rcases kinds_eq_cons_iff.1 others with ⟨sign, back, rfl, kind, second⟩
  rcases left.of_kinds first with ⟨lhs, left⟩
  rcases right.of_kinds second with ⟨rhs, right⟩
  exact ⟨_, .intro left (by rw [kind]; exact stands) right⟩

/-! ## Tokens that are written down -/

/-- The token means something, and with a space behind it, it is cut off as it is. -/
structure Token.Standalone (token : Token) : Prop where
  solid : token.kind.isBlank = false
  ends : ∀ rest, ∃ first after, token.lexeme.toList = first :: after ∧
    scan first (after ++ ' ' :: rest) = ⟨token.kind, first :: after, ' ' :: rest⟩

/-- What starts with a character that keeps tokens apart is blank. -/
theorem IsLongest.isBlank_of_separator {c : Char} {lexeme text : List Char}
    (best : IsLongest kind (c :: lexeme) text) (separates : isSeparator c = true) :
    kind.isBlank = true := by
  have apart : (TokenKind.blank, isSeparator, isSeparator) ∈ TokenKind.runs := by
    simp [TokenKind.runs]
  have run := runFrom?_of_mem_runs apart separates
  cases best.spells with
  | sign listed =>
      have none := runFrom?_of_mem_spellings _ listed
      rw [List.head?_cons, Option.bind_some, run] at none
      cases none
  | run listed begins =>
      have same := (runFrom?_of_mem_runs listed begins).symm.trans run
      cases same
      rfl
  | unknown =>
      have blank : TokenKind.blank.Spells [c] := .run apart separates (by simp)
      rcases best.preferred .blank blank with same | same <;> cases same

/-- No token but a blank one goes on with a space. -/
theorem IsLongest.before_space {lexeme text : List Char} (best : IsLongest kind lexeme text)
    (solid : kind.isBlank = false) (rest : List Char) :
    IsLongest kind lexeme (lexeme ++ ' ' :: rest) where
  spells := best.spells
  starts := List.prefix_append _ _
  preferred := best.preferred
  longest := by
    intro other piece spells starts
    refine Nat.le_of_not_lt fun longer => ?_
    have further : lexeme ++ [' '] <+: piece := by
      refine List.prefix_of_prefix_length_le ⟨rest, ?_⟩ starts ?_
      · rw [List.append_assoc]
        rfl
      · rw [List.length_append]
        exact longer
    have space : ' ' ∈ piece := further.subset (by simp)
    cases spells with
    | sign listed =>
        have signs : ∀ spelling ∈ TokenKind.spellings, ' ' ∉ spelling.1 := by decide
        exact signs _ listed space
    | unknown =>
        have positive := List.length_pos_iff.2 best.spells.ne_nil
        exact absurd longer (Nat.not_lt_of_le positive)
    | @run _ begins belongs first after listed starts all =>
        cases lexeme with
        | nil => exact best.spells.ne_nil rfl
        | cons c more =>
            obtain ⟨rfl, others⟩ := List.cons_prefix_cons.1 further
            have member := all ' ' (others.subset (by simp))
            -- only the run of separators goes on with a space, and it starts with a separator
            have separates : isSeparator c = true := by
              simp only [TokenKind.runs, List.mem_cons, Prod.mk.injEq, List.not_mem_nil,
                or_false] at listed
              rcases listed with ⟨-, -, rfl⟩ | ⟨-, rfl, -⟩ | ⟨-, -, rfl⟩ | ⟨-, -, rfl⟩
              · cases member
              · exact starts
              · cases member
              · cases member
            rw [best.isBlank_of_separator separates] at solid
            cases solid

theorem Token.Standalone.of_isLongest {lexeme text : List Char} (offset : Nat)
    (best : IsLongest kind lexeme text) (solid : kind.isBlank = false) :
    (Token.ofLexeme kind offset lexeme).Standalone where
  solid := solid
  ends rest := by
    cases lexeme with
    | nil => exact absurd rfl best.spells.ne_nil
    | cons first after =>
        refine ⟨first, after, String.toList_ofList, IsLongest.scan_eq ?_⟩
        exact best.before_space solid rest

/-- The tokens of a source that mean something can be written down elsewhere. -/
theorem standalone_of_mem_tokenize {source : String} {token : Token}
    (stands : token ∈ significant (tokenize source)) : token.Standalone := by
  obtain ⟨stands, solid⟩ := List.mem_filter.1 stands
  obtain ⟨kind, before, lexeme, rest, -, rfl, best⟩ := exists_of_mem_tokensFrom stands
  exact .of_isLongest _ best (by simpa [Token.isBlank, Token.ofLexeme] using solid)

/-- What a token is, wherever it stands. -/
def Token.word (token : Token) : TokenKind × String := (token.kind, token.lexeme)

/-- The tokens with a space behind each. -/
def spaced (tokens : List Token) : List Char :=
  tokens.flatMap fun token => token.lexeme.toList ++ [' ']

/-- Tokens that are written down are cut off again. -/
theorem exists_cuts_spaced (alone : ∀ token ∈ tokens, token.Standalone) (offset : Nat) :
    ∃ tokens', Cuts offset (spaced tokens) [] tokens' ∧
      tokens'.map Token.word = tokens.map Token.word := by
  induction tokens generalizing offset with
  | nil => exact ⟨[], by rw [Cuts]; rfl, rfl⟩
  | cons token tokens ih =>
      obtain ⟨first, after, text, cut⟩ := (alone token List.mem_cons_self).ends (spaced tokens)
      rcases ih (fun token stands => alone token (List.mem_cons_of_mem _ stands))
        (offset + byteLength (token.lexeme.toList ++ [' '])) with ⟨tokens', cuts, words⟩
      have lexeme : Cuts offset token.lexeme.toList ([' '] ++ spaced tokens)
          [.ofLexeme token.kind offset token.lexeme.toList] := by
        rw [text]
        exact .of_scan cut (alone token List.mem_cons_self).solid
      rw [← List.append_nil (spaced tokens)] at lexeme
      refine ⟨_, (lexeme.append Cuts.space).append cuts, ?_⟩
      rw [List.append_nil, List.map_append, words]
      simp [Token.word, Token.ofLexeme]

/-! ## Texts that are read -/

/-- The parser reads a text whose tokens, apart from blanks, start with the given ones. -/
def Continuable (parser : (sourceEnd : Nat) → (tokens : List Token) → Reply tokens α)
    (front : List Token) : Prop :=
  ∃ text value, parse parser text = .ok value ∧
    front.map Token.word <+: (significant (tokenize text)).map Token.word

/-- The grammar derives the tokens of a text, apart from blanks, and they start with the given
ones. -/
def Begins (derives : List Token → α → Prop) (front : List Token) : Prop :=
  ∃ text value, derives (significant (tokenize text)) value ∧
    front.map Token.word <+: (significant (tokenize text)).map Token.word

/-- What is read is what the grammar derives, so it does not matter which of them is continued. -/
theorem Reads.continuable_iff_begins
    {parser : (sourceEnd : Nat) → (tokens : List Token) → Reply tokens α}
    {derives : List Token → α → Prop} {follow : Option TokenKind → Prop}
    (reads : Reads parser derives follow) (ends : follow none) :
    Continuable parser front ↔ Begins derives front := by
  constructor
  · intro ⟨text, value, done, starts⟩
    exact ⟨text, value, (reads.parse_eq_ok_iff ends).1 done, starts⟩
  · intro ⟨text, value, derived, starts⟩
    exact ⟨text, value, (reads.parse_eq_ok_iff ends).2 derived, starts⟩

theorem kinds_eq_of_word_eq (words : tokens'.map Token.word = tokens.map Token.word) :
    kinds tokens' = kinds tokens := by
  have firsts := congrArg (List.map Prod.fst) words
  rw [List.map_map, List.map_map] at firsts
  exact firsts

/-- Tokens can be continued if together with others that can be written down they are derived. -/
theorem Reads.continuable {parser : (sourceEnd : Nat) → (tokens : List Token) → Reply tokens α}
    {derives : List Token → α → Prop} {follow : Option TokenKind → Prop}
    (reads : Reads parser derives follow) (ends : follow none) (respects : RespectsKinds derives)
    {value : α} (derived : derives (front ++ behind) value)
    (alone : ∀ token ∈ front ++ behind, token.Standalone) : Continuable parser front := by
  rcases exists_cuts_spaced alone 0 with ⟨tokens, cuts, words⟩
  rcases respects _ tokens _ derived (kinds_eq_of_word_eq words) with ⟨value', derived'⟩
  have cut : significant (tokenize (String.ofList (spaced (front ++ behind)))) = tokens := by
    rw [tokenize, String.toList_ofList]
    exact cuts.significant_eq
  refine ⟨_, value', (reads.parse_eq_ok_iff ends).2 (by rw [cut]; exact derived'), ?_⟩
  rw [cut, words, List.map_append]
  exact List.prefix_append _ _

end Calculation.Source
