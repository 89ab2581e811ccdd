import Calculation.Diagnostic

/-!
What reading from a list of tokens comes to.

A `Reply` holds either a value or a diagnostic, and in both cases the tokens that are left.  Reading
never adds tokens, and a reply with a value carries the proof.  This is what the recursions of the
grammar end by: each of them first takes a token, and `withNext` proves that fewer are left then.
-/

namespace Calculation.Source

/-! ## Replies -/

/-- What reading from `tokens` came to, with the tokens left after it. -/
inductive Reply (tokens : List Token) (α : Type) where
  | done (value : α) (rest : List Token) (le : rest.length ≤ tokens.length)
  /-- Nothing could be read, and reading stopped before `rest`. -/
  | failed (diagnostic : Diagnostic) (rest : List Token)

namespace Reply

variable {α β : Type} {tokens : List Token}

def outcome : Reply tokens α → Except Diagnostic α
  | done value _ _ => .ok value
  | failed diagnostic _ => .error diagnostic

def rest : Reply tokens α → List Token
  | done _ rest _ => rest
  | failed _ rest => rest

/-- The reply as one to a longer list of tokens. -/
def within {longer : List Token} (reply : Reply tokens α)
    (le : tokens.length ≤ longer.length) : Reply longer α :=
  match reply with
  | done value rest shorter => .done value rest (Nat.le_trans shorter le)
  | failed diagnostic rest => .failed diagnostic rest

def andThen (reply : Reply tokens α)
    (next : (value : α) → (rest : List Token) → rest.length ≤ tokens.length → Reply rest β) :
    Reply tokens β :=
  match reply with
  | done value rest le => (next value rest le).within le
  | failed diagnostic rest => .failed diagnostic rest

def map (make : α → β) (reply : Reply tokens α) : Reply tokens β :=
  match reply with
  | done value rest le => .done (make value) rest le
  | failed diagnostic rest => .failed diagnostic rest

def pure (value : α) : Reply tokens α := .done value tokens (Nat.le_refl _)

end Reply

/-! ## The next token -/

/-- The first token that is not blank, and the tokens after it. -/
structure Next (tokens : List Token) where
  token : Token
  rest : List Token
  lt : rest.length < tokens.length

def next? : (tokens : List Token) → Option (Next tokens)
  | [] => none
  | token :: rest =>
    if token.isBlank then
      (next? rest).map fun found => ⟨found.token, found.rest, Nat.lt_succ_of_lt found.lt⟩
    else
      some ⟨token, rest, Nat.lt_succ_self _⟩

/-- The first token that is not blank, if it is of the kind. -/
def nextOf? (kind : TokenKind) (tokens : List Token) : Option (Next tokens) :=
  (next? tokens).filter fun found => found.token.kind = kind

def peekKind? (tokens : List Token) : Option TokenKind := (next? tokens).map (·.token.kind)

def skipBlanks (tokens : List Token) : List Token := tokens.dropWhile Token.isBlank

/-- Where a source ends: at the end of its last token. -/
def endOf (tokens : List Token) : Nat := (tokens.getLast?.map (·.span.stop)).getD 0

/-- The region of the first token, or else the end of the source. -/
def headSpan (sourceEnd : Nat) (tokens : List Token) : Span :=
  (tokens.head?.map (·.span)).getD (.empty sourceEnd)

/-- Goes on reading after the next token.  It is an error if there is none. -/
def withNext {α : Type} (sourceEnd : Nat) (tokens : List Token)
    (use : (token : Token) → (rest : List Token) → rest.length < tokens.length → Reply rest α) :
    Reply tokens α :=
  match next? tokens with
  | some found => (use found.token found.rest found.lt).within (Nat.le_of_lt found.lt)
  | none => .failed (.pointingAt (.empty sourceEnd) .unexpectedEnd) []

/-- The error of a token whose kind is not one of those expected. -/
def unexpected (expected : List TokenKind) (token : Token) : Diagnostic :=
  .pointingAt token.span (.unexpectedToken expected token.kind)

def anyToken (sourceEnd : Nat) (tokens : List Token) : Reply tokens Token :=
  withNext sourceEnd tokens fun token _ _ => .pure token

def tokenOf (kind : TokenKind) (expected : List TokenKind) (sourceEnd : Nat)
    (tokens : List Token) : Reply tokens Token :=
  withNext sourceEnd tokens fun token rest _ =>
    if token.kind = kind then .pure token else .failed (unexpected expected token) rest

end Calculation.Source
