import Calculation.Proofs.Grammar

/-!
What parsers leave of the tokens they are given.

What a parser comes to is the value that was read and the tokens that are left (`Reply.read?`).  The
tokens in between, apart from blanks, lead from the one list to the other (`Leads`).  Whatever comes
first among the tokens that mean something can be read off in this way (`exists_leads`), so that
statements about what is read can leave the blanks out.
-/

namespace Calculation.Source

/-! ## Replies -/

namespace Reply

variable {α β : Type} {tokens : List Token}

/-- The value that was read and the tokens that are left, if there is a value. -/
def read? : Reply tokens α → Option (α × List Token)
  | done value rest _ => some (value, rest)
  | failed _ _ => none

@[simp] theorem read?_pure (value : α) :
    (Reply.pure value : Reply tokens α).read? = some (value, tokens) := rfl

@[simp] theorem read?_failed (diagnostic : Diagnostic) (rest : List Token) :
    (Reply.failed diagnostic rest : Reply tokens α).read? = none := rfl

@[simp] theorem read?_done (value : α) (rest : List Token) (le : rest.length ≤ tokens.length) :
    (Reply.done value rest le).read? = some (value, rest) := rfl

theorem outcome_eq_ok_iff {reply : Reply tokens α} {value : α} :
    reply.outcome = .ok value ↔ ∃ rest, reply.read? = some (value, rest) := by
  cases reply with
  | done value' rest le => simp [outcome]
  | failed diagnostic rest => simp [outcome]

@[simp] theorem read?_within {longer : List Token} (reply : Reply tokens α)
    (le : tokens.length ≤ longer.length) : (reply.within le).read? = reply.read? := by
  cases reply <;> rfl

theorem length_le_of_read? {reply : Reply tokens α} {value : α} {rest : List Token}
    (read : reply.read? = some (value, rest)) : rest.length ≤ tokens.length := by
  cases reply with
  | done value' rest' le =>
      cases read
      exact le
  | failed diagnostic rest' => cases read

@[simp] theorem read?_map_eq_some_iff {make : α → β} {reply : Reply tokens α} {made : β}
    {rest : List Token} :
    (reply.map make).read? = some (made, rest) ↔
      ∃ value, reply.read? = some (value, rest) ∧ make value = made := by
  cases reply with
  | done value rest' le =>
      simp only [map, read?_done, Option.some.injEq, Prod.mk.injEq]
      constructor
      · rintro ⟨same, left⟩
        exact ⟨value, ⟨rfl, left⟩, same⟩
      · rintro ⟨value', ⟨rfl, left⟩, same⟩
        exact ⟨same, left⟩
  | failed diagnostic rest' => simp [map]

@[simp] theorem read?_andThen_eq_some_iff {reply : Reply tokens α}
    {next : (value : α) → (rest : List Token) → rest.length ≤ tokens.length → Reply rest β}
    {result : β × List Token} :
    (reply.andThen next).read? = some result ↔
      ∃ value rest, ∃ read : reply.read? = some (value, rest),
        (next value rest (length_le_of_read? read)).read? = some result := by
  cases reply with
  | done value rest le =>
      rw [andThen, read?_within]
      constructor
      · intro read
        exact ⟨value, rest, rfl, read⟩
      · rintro ⟨value', rest', same, read⟩
        cases same
        exact read
  | failed diagnostic rest => simp [andThen]

@[simp] theorem read?_withNext_eq_some_iff {sourceEnd : Nat}
    {use : (token : Token) → (rest : List Token) → rest.length < tokens.length → Reply rest α}
    {result : α × List Token} :
    (withNext sourceEnd tokens use).read? = some result ↔
      ∃ found, next? tokens = some found ∧
        (use found.token found.rest found.lt).read? = some result := by
  rw [withNext]
  cases next? tokens <;> simp

/-! ## Replies without a value -/

@[simp] theorem outcome_pure (value : α) :
    (Reply.pure value : Reply tokens α).outcome = .ok value := rfl

@[simp] theorem outcome_failed (diagnostic : Diagnostic) (rest : List Token) :
    (Reply.failed diagnostic rest : Reply tokens α).outcome = .error diagnostic := rfl

@[simp] theorem outcome_done (value : α) (rest : List Token) (le : rest.length ≤ tokens.length) :
    (Reply.done value rest le).outcome = .ok value := rfl

@[simp] theorem outcome_within {longer : List Token} (reply : Reply tokens α)
    (le : tokens.length ≤ longer.length) : (reply.within le).outcome = reply.outcome := by
  cases reply <;> rfl

@[simp] theorem outcome_map_eq_error_iff {make : α → β} {reply : Reply tokens α}
    {diagnostic : Diagnostic} :
    (reply.map make).outcome = .error diagnostic ↔ reply.outcome = .error diagnostic := by
  cases reply <;> simp [map]

/-- One after the other fails if the first does, or the second after what the first has read. -/
theorem outcome_andThen_eq_error_iff {reply : Reply tokens α}
    {next : (value : α) → (rest : List Token) → rest.length ≤ tokens.length → Reply rest β}
    {diagnostic : Diagnostic} :
    (reply.andThen next).outcome = .error diagnostic ↔
      reply.outcome = .error diagnostic ∨
        ∃ value rest, ∃ read : reply.read? = some (value, rest),
          (next value rest (length_le_of_read? read)).outcome = .error diagnostic := by
  cases reply with
  | done value rest le =>
      rw [andThen, outcome_within]
      constructor
      · intro failed
        exact .inr ⟨value, rest, rfl, failed⟩
      · rintro (failed | ⟨value', rest', same, failed⟩)
        · cases failed
        · cases same
          exact failed
  | failed diagnostic' rest => simp [andThen]

/-- Reading on from the next token fails if there is none, or else as it does after that token. -/
theorem outcome_withNext_eq_error_iff {sourceEnd : Nat}
    {use : (token : Token) → (rest : List Token) → rest.length < tokens.length → Reply rest α}
    {diagnostic : Diagnostic} :
    (withNext sourceEnd tokens use).outcome = .error diagnostic ↔
      next? tokens = none ∧ diagnostic = .pointingAt (.empty sourceEnd) .unexpectedEnd ∨
        ∃ found, next? tokens = some found ∧
          (use found.token found.rest found.lt).outcome = .error diagnostic := by
  rw [withNext]
  cases next? tokens <;> simp [eq_comm]

end Reply

/-! ## The tokens between -/

/-- The tokens that mean something, without the blanks between them. -/
def significant (tokens : List Token) : List Token := tokens.filter fun token => !token.isBlank

@[simp] theorem significant_append (front back : List Token) :
    significant (front ++ back) = significant front ++ significant back :=
  List.filter_append ..

theorem significant_cons {token : Token} (solid : token.kind.isBlank = false)
    (tokens : List Token) : significant (token :: tokens) = token :: significant tokens :=
  List.filter_cons_of_pos (by rw [Token.isBlank, solid]; rfl)

/-- Reading the tokens of `read`, one after the other and apart from blanks, leads from `tokens` to
`rest`. -/
def Leads : (read tokens rest : List Token) → Prop
  | [], tokens, rest => tokens = rest
  | token :: read, tokens, rest =>
    ∃ found, next? tokens = some found ∧ found.token = token ∧ Leads read found.rest rest

variable {tokens rest read front back : List Token}

theorem leads_append_iff :
    Leads (front ++ back) tokens rest ↔
      ∃ middle, Leads front tokens middle ∧ Leads back middle rest := by
  induction front generalizing tokens with
  | nil => simp [Leads]
  | cons token front ih =>
      simp only [List.cons_append, Leads, ih]
      constructor
      · rintro ⟨found, next, same, middle, first, second⟩
        exact ⟨middle, ⟨found, next, same, first⟩, second⟩
      · rintro ⟨middle, ⟨found, next, same, first⟩, second⟩
        exact ⟨found, next, same, middle, first, second⟩

theorem leads_singleton_iff {token : Token} :
    Leads [token] tokens rest ↔
      ∃ found, next? tokens = some found ∧ found.token = token ∧ found.rest = rest := Iff.rfl

theorem leads_cons_iff {token : Token} :
    Leads (token :: read) tokens rest ↔
      ∃ middle, Leads [token] tokens middle ∧ Leads read middle rest :=
  (leads_append_iff : Leads ([token] ++ read) tokens rest ↔ _)

theorem Leads.append {middle : List Token} (first : Leads front tokens middle)
    (second : Leads back middle rest) : Leads (front ++ back) tokens rest :=
  leads_append_iff.2 ⟨middle, first, second⟩

theorem Leads.cons {token : Token} {middle : List Token} (first : Leads [token] tokens middle)
    (second : Leads read middle rest) : Leads (token :: read) tokens rest :=
  first.append second

/-- The next token is the first that means something, and nothing is next if none does. -/
theorem significant_eq (tokens : List Token) :
    significant tokens = (match next? tokens with
      | some found => found.token :: significant found.rest
      | none => []) := by
  induction tokens with
  | nil => rfl
  | cons token tokens ih =>
      rw [next?, significant, List.filter_cons]
      cases blank : token.isBlank with
      | true =>
          rw [if_pos rfl]
          change significant tokens = _
          rw [ih]
          cases next? tokens <;> rfl
      | false => rfl

theorem significant_of_next? {found : Next tokens} (next : next? tokens = some found) :
    significant tokens = found.token :: significant found.rest := by
  rw [significant_eq, next]

theorem next?_eq_none_iff : next? tokens = none ↔ significant tokens = [] := by
  rw [significant_eq]
  cases next? tokens <;> simp

/-- The tokens read are those that mean something, up to those that are left. -/
theorem Leads.significant_eq (leads : Leads read tokens rest) :
    significant tokens = read ++ significant rest := by
  induction read generalizing tokens with
  | nil => exact congrArg significant leads
  | cons token read ih =>
      rcases leads with ⟨found, next, rfl, later⟩
      rw [significant_of_next? next, ih later]
      rfl

/-- The tokens that mean something can be read. -/
theorem exists_leads {following : List Token} (parts : significant tokens = read ++ following) :
    ∃ rest, Leads read tokens rest ∧ significant rest = following := by
  induction read generalizing tokens with
  | nil => exact ⟨tokens, rfl, parts⟩
  | cons token read ih =>
      cases next : next? tokens with
      | none =>
          rw [next?_eq_none_iff.1 next] at parts
          cases parts
      | some found =>
          rw [significant_of_next? next, List.cons_append, List.cons.injEq] at parts
          rcases ih parts.2 with ⟨rest, leads, left⟩
          exact ⟨rest, ⟨found, next, parts.1, leads⟩, left⟩

theorem skipBlanks_eq_nil_iff : skipBlanks tokens = [] ↔ significant tokens = [] := by
  induction tokens with
  | nil => simp [skipBlanks, significant]
  | cons token tokens ih =>
      rw [skipBlanks, significant, List.dropWhile_cons, List.filter_cons]
      cases token.isBlank with
      | true => exact ih
      | false => simp

/-! ## What is next -/

theorem peekKind?_eq_some_iff {kind : TokenKind} :
    peekKind? tokens = some kind ↔
      ∃ found, next? tokens = some found ∧ found.token.kind = kind := by
  simp [peekKind?]

theorem nextOf?_eq_some_iff {kind : TokenKind} {found : Next tokens} :
    nextOf? kind tokens = some found ↔ next? tokens = some found ∧ found.token.kind = kind := by
  simp [nextOf?, Option.filter_eq_some_iff]

theorem nextOf?_eq_none_iff {kind : TokenKind} :
    nextOf? kind tokens = none ↔ ∀ found, next? tokens = some found → found.token.kind ≠ kind := by
  simp [nextOf?, Option.filter_eq_none_iff]

theorem nextOperator?_eq_some_iff {bound : Option Precedence} {operator : Placed BinaryOperator}
    {found : Next tokens} :
    nextOperator? bound tokens = some (operator, found) ↔
      next? tokens = some found ∧ found.token.kind.binaryOperator? = some operator.kind ∧
        operator.kind.precedence.isAbove bound = true ∧ found.token.span = operator.span := by
  rcases operator with ⟨kind, span⟩
  simp only [nextOperator?, Option.bind_eq_bind, Option.bind_eq_some_iff]
  constructor
  · rintro ⟨found', next, kind', stands, rest⟩
    split at rest
    · cases rest
      exact ⟨next, stands, ‹_›, rfl⟩
    · cases rest
  · rintro ⟨next, stands, above, rfl⟩
    exact ⟨found, next, kind, stands, if_pos above⟩

end Calculation.Source
