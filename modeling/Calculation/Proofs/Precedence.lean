import Calculation.Proofs.Reply

/-!
The recursion that reads the operations of an expression reads what the grammar derives.

It is told how tightly an operator has to bind, while the grammar has one phrase for each
precedence.  The left operand grows on the way.  What is known of it is that it can be the left
operand of whatever operator is taken next (`Grown`), since operators that bind tighter have all
been taken before.

* `exists_derives_of_expression`: what is read is derived.
* `Phrase.Derives.resumes`: what is derived can be read, and reading goes on behind it.
-/

namespace Calculation.Source

variable {tokens rest read front back : List Token}

/-! ## Operands and operations -/

namespace Phrase

/-- The phrase that operations make up whose operators bind tighter than the bound. -/
def above : Option Precedence → Phrase
  | none => .expression
  | some .sum => .term
  | some .product => .factor

/-- The phrase that has an operator of the precedence at its end, before its last operand. -/
def of : Precedence → Phrase
  | .sum => .expression
  | .product => .term

variable {bound : Option Precedence} {precedence other : Precedence} {tree lhs rhs : Tree}

/-- A factor is a term and an expression. -/
theorem Derives.of_factor (factor : Phrase.factor.Derives read tree) (phrase : Phrase) :
    phrase.Derives read tree := by
  cases phrase with
  | factor => exact factor
  | term => exact .factor factor
  | expression => exact .term (.factor factor)

theorem Derives.to_above (derived : (of precedence).Derives read tree)
    (binds : precedence.isAbove bound = true) : (above bound).Derives read tree := by
  rcases bound with _ | _ | _ <;> cases precedence
  · exact derived
  · exact .term derived
  · cases binds
  · exact derived
  · cases binds
  · cases binds

/-- What ends with an operator can be the left operand of one that does not bind tighter. -/
theorem Derives.to_of (derived : (of precedence).Derives read tree)
    (binds : ¬ other.isAbove (some precedence) = true) : (of other).Derives read tree := by
  cases precedence <;> cases other
  · exact derived
  · exact (binds rfl).elim
  · exact .term derived
  · exact derived

/-- An operator with its operands. -/
theorem Derives.join {sign : Token} {operator : BinaryOperator}
    (stands : sign.kind.binaryOperator? = some operator)
    (left : (of operator.precedence).Derives front lhs)
    (right : (above (some operator.precedence)).Derives back rhs) :
    (of operator.precedence).Derives (front ++ sign :: back)
      (lhs.join ⟨operator, sign.span⟩ rhs) := by
  cases kind : sign.kind <;> rw [kind] at stands <;> cases stands
  · exact .sum left (by rw [kind]; decide) right
  · exact .sum left (by rw [kind]; decide) right
  · exact .product left (by rw [kind]; decide) right
  · exact .product left (by rw [kind]; decide) right

end Phrase

/-- The expression before `tokens` is what operations have come to so far, and can be the left
operand of the next one. -/
structure Grown (bound : Option Precedence) (front : List Token) (lhs : Tree)
    (tokens : List Token) : Prop where
  derived : (Phrase.above bound).Derives front lhs
  ready : ∀ operator found, nextOperator? bound tokens = some (operator, found) →
    (Phrase.of operator.kind.precedence).Derives front lhs

/-- A factor is all that an operand can be. -/
def ReadsFactor (sourceEnd : Nat) (tokens : List Token) : Prop :=
  ∀ tree rest, (operand sourceEnd tokens).read? = some (tree, rest) →
    ∃ read, Phrase.factor.Derives read tree ∧ Leads read tokens rest

variable {sourceEnd : Nat} {bound : Option Precedence} {tree lhs : Tree}

theorem Grown.of_factor (factor : Phrase.factor.Derives front lhs) :
    Grown bound front lhs tokens :=
  ⟨factor.of_factor _, fun _ _ _ => factor.of_factor _⟩

/-- After the right operand of an operator no operator binds tighter than it, so that the whole can
be the left operand of the next one. -/
theorem Grown.join {sign : Token} {operator : BinaryOperator} {rhs : Tree}
    (stands : sign.kind.binaryOperator? = some operator)
    (binds : operator.precedence.isAbove bound = true)
    (left : (Phrase.of operator.precedence).Derives front lhs)
    (right : (Phrase.above (some operator.precedence)).Derives back rhs)
    (ends : nextOperator? (some operator.precedence) rest = none) :
    Grown bound (front ++ sign :: back) (lhs.join ⟨operator, sign.span⟩ rhs) rest := by
  have joined := Phrase.Derives.join stands left right
  refine ⟨joined.to_above binds, fun next found follows => joined.to_of fun tighter => ?_⟩
  rcases nextOperator?_eq_some_iff.1 follows with ⟨here, kind, -, span⟩
  have taken := nextOperator?_eq_some_iff.2 ⟨here, kind, tighter, span⟩
  rw [ends] at taken
  cases taken

/-- Operations read what is derived, and stop before an operator that does not bind tighter than the
bound, as long as what is read as their operands are factors. -/
theorem exists_derives_of_operations {size : Nat}
    (operands : ∀ tokens : List Token, tokens.length < size → ReadsFactor sourceEnd tokens)
    (within : tokens.length ≤ size) (grown : Grown bound front lhs tokens)
    (done : (operations sourceEnd bound lhs tokens).read? = some (tree, rest)) :
    ∃ read, (Phrase.above bound).Derives (front ++ read) tree ∧ Leads read tokens rest ∧
      nextOperator? bound rest = none := by
  -- the recursion calls itself twice, for the right operand and for what comes after it
  induction length : tokens.length using Nat.strongRecOn
    generalizing tokens bound front lhs tree rest with
  | ind _ ih =>
  subst length
  rw [operations] at done
  split at done
  · rename_i ends
    cases done
    exact ⟨[], by rw [List.append_nil]; exact grown.derived, rfl, ends⟩
  · rename_i operator sign after lt follows
    simp only [Reply.read?_within, Reply.read?_andThen_eq_some_iff] at done
    rcases done with ⟨first, middle, factor, rhs, behind, right, last⟩
    rcases nextOperator?_eq_some_iff.1 follows with ⟨next, stands, binds, span⟩
    rcases operands after (Nat.lt_of_lt_of_le lt within) first middle factor with
      ⟨read, derived, leads⟩
    have lt' : middle.length < tokens.length :=
      Nat.lt_of_le_of_lt (Reply.length_le_of_read? factor) lt
    have lt'' : behind.length < tokens.length :=
      Nat.lt_of_le_of_lt (Reply.length_le_of_read? right) lt'
    rcases ih middle.length lt' (Nat.le_of_lt (Nat.lt_of_lt_of_le lt' within))
      (.of_factor derived) right rfl with ⟨read', derived', leads', ends⟩
    have joined := Grown.join stands binds (grown.ready operator _ follows) derived' ends
    have same : (⟨operator.kind, sign.span⟩ : Placed BinaryOperator) = operator := by
      rw [show sign.span = operator.span from span]
    rw [same] at joined
    rcases ih behind.length lt'' (Nat.le_of_lt (Nat.lt_of_lt_of_le lt'' within)) joined last rfl
      with ⟨read'', derived'', leads'', ends'⟩
    refine ⟨sign :: (read ++ read') ++ read'', ?_, ?_, ends'⟩
    · rw [← List.append_assoc]
      exact derived''
    · exact ⟨_, next, rfl, (leads.append leads').append leads''⟩

/-- An expression is derived if what is read as operands are factors. -/
theorem exists_derives_of_expression {size : Nat}
    (operands : ∀ tokens : List Token, tokens.length < size → ReadsFactor sourceEnd tokens)
    (within : tokens.length < size)
    (done : (expression sourceEnd tokens).read? = some (tree, rest)) :
    ∃ read, Phrase.expression.Derives read tree ∧ Leads read tokens rest ∧
      nextOperator? none rest = none := by
  rw [expression, Reply.read?_andThen_eq_some_iff] at done
  rcases done with ⟨first, middle, factor, last⟩
  rcases operands tokens within first middle factor with ⟨read, derived, leads⟩
  rcases exists_derives_of_operations operands
    (Nat.le_of_lt (Nat.lt_of_le_of_lt (Reply.length_le_of_read? factor) within))
    (.of_factor derived) last with
    ⟨read', derived', leads', ends⟩
  exact ⟨read ++ read', derived', leads.append leads', ends⟩

theorem read?_atom_eq_some_iff (sourceEnd : Nat) {leaf : Atom} :
    (atom sourceEnd tokens).read? = some (leaf, rest) ↔
      ∃ read, DerivesAtom read leaf ∧ Leads read tokens rest := by
  rw [atom, Reply.read?_withNext_eq_some_iff]
  constructor
  · rintro ⟨found, next, done⟩
    split at done
    · rename_i kind
      cases done
      exact ⟨_, ⟨.inl kind⟩, leads_singleton_iff.2 ⟨found, next, rfl, rfl⟩⟩
    · rename_i kind
      cases done
      exact ⟨_, ⟨.inr kind⟩, leads_singleton_iff.2 ⟨found, next, rfl, rfl⟩⟩
    · cases done
  · rintro ⟨_, ⟨word⟩, leads⟩
    rcases leads_singleton_iff.1 leads with ⟨found, next, rfl, rfl⟩
    refine ⟨found, next, ?_⟩
    rcases word with kind | kind <;> rw [kind] <;> rfl

/-- What is read as an operand is a factor. -/
theorem readsFactor (sourceEnd : Nat) (tokens : List Token) : ReadsFactor sourceEnd tokens := by
  induction length : tokens.length using Nat.strongRecOn generalizing tokens with
  | ind _ ih =>
  subst length
  have operands : ∀ shorter : List Token, shorter.length < tokens.length →
      ReadsFactor sourceEnd shorter := fun shorter lt => ih _ lt shorter rfl
  intro tree rest done
  rw [operand] at done
  split at done
  · rw [negation, Reply.read?_withNext_eq_some_iff] at done
    rcases done with ⟨sign, next, done⟩
    split at done
    · rename_i minus
      rcases Reply.read?_map_eq_some_iff.1 done with ⟨inner, factor, rfl⟩
      rcases operands sign.rest sign.lt inner rest factor with ⟨read, derived, leads⟩
      exact ⟨sign.token :: read, .negation minus derived, sign, next, rfl, leads⟩
    · cases done
  · rw [parenthesis, Reply.read?_withNext_eq_some_iff] at done
    rcases done with ⟨opening, next, done⟩
    split at done
    · rename_i opens
      split at done
      · cases done
      · rcases Reply.read?_andThen_eq_some_iff.1 done with ⟨inner, behind, within, last⟩
        split at last
        · rename_i closing closes
          cases last
          rcases nextOf?_eq_some_iff.1 closes with ⟨next', closes⟩
          rcases exists_derives_of_expression operands opening.lt within with
            ⟨read, derived, leads, -⟩
          refine ⟨_, .parenthesis opens derived closes, opening, next, rfl, ?_⟩
          exact leads.append (leads_singleton_iff.2 ⟨_, next', rfl, rfl⟩)
        · cases last
    · cases done
  · rcases Reply.read?_map_eq_some_iff.1 done with ⟨leaf, word, rfl⟩
    rcases (read?_atom_eq_some_iff sourceEnd).1 word with ⟨read, derived, leads⟩
    exact ⟨read, .atom derived, leads⟩

/-! ## What is derived is read -/

/-- An operand is read, and operations whose operators bind tighter than the bound after it. -/
def ReadsOperations (sourceEnd : Nat) (bound : Option Precedence) (tokens : List Token)
    (result : Tree × List Token) : Prop :=
  ∃ first rest, (operand sourceEnd tokens).read? = some (first, rest) ∧
    (operations sourceEnd bound first rest).read? = some result

theorem read?_expression_iff {result : Tree × List Token} :
    (expression sourceEnd tokens).read? = some result ↔
      ReadsOperations sourceEnd none tokens result := by
  rw [expression, Reply.read?_andThen_eq_some_iff]
  simp only [exists_prop]
  rfl

theorem operations_of_end (ends : nextOperator? bound tokens = none) :
    (operations sourceEnd bound lhs tokens).read? = some (lhs, tokens) := by
  rw [operations]
  split
  · rfl
  · rename_i follows
    rw [ends] at follows
    cases follows

/-- Operations go on after the right operand of the next operator. -/
theorem operations_of_next {operator : Placed BinaryOperator} {found : Next tokens} {rhs : Tree}
    {result : Tree × List Token} (follows : nextOperator? bound tokens = some (operator, found))
    (right : ReadsOperations sourceEnd (some operator.kind.precedence) found.rest (rhs, rest))
    (last : (operations sourceEnd bound (lhs.join operator rhs) rest).read? = some result) :
    (operations sourceEnd bound lhs tokens).read? = some result := by
  rcases right with ⟨first, middle, factor, right⟩
  rw [operations]
  split
  · rename_i ends
    rw [follows] at ends
    cases ends
  · rename_i follows'
    cases follows.symm.trans follows'
    simp only [Reply.read?_within, Reply.read?_andThen_eq_some_iff]
    exact ⟨first, middle, factor, rhs, rest, right, last⟩

/-- Operations that go on have read the right operand of the next operator. -/
theorem exists_of_operations {operator : Placed BinaryOperator} {found : Next tokens}
    {result : Tree × List Token} (follows : nextOperator? bound tokens = some (operator, found))
    (done : (operations sourceEnd bound lhs tokens).read? = some result) :
    ∃ rhs rest, ReadsOperations sourceEnd (some operator.kind.precedence) found.rest (rhs, rest) ∧
      (operations sourceEnd bound (lhs.join operator rhs) rest).read? = some result := by
  rw [operations] at done
  split at done
  · rename_i ends
    rw [follows] at ends
    cases ends
  · rename_i follows'
    cases follows.symm.trans follows'
    simp only [Reply.read?_within, Reply.read?_andThen_eq_some_iff] at done
    rcases done with ⟨first, middle, factor, rhs, rest, right, last⟩
    exact ⟨rhs, rest, ⟨first, middle, factor, right⟩, last⟩

/-- What is next cannot go on with an expression. -/
def EndsExpression (next : Option TokenKind) : Prop :=
  ∀ kind, next = some kind → kind.binaryOperator? = none

theorem nextOperator?_of_ends (ends : EndsExpression (peekKind? tokens))
    (bound : Option Precedence) : nextOperator? bound tokens = none := by
  cases follows : nextOperator? bound tokens with
  | none => rfl
  | some pair =>
      rcases pair with ⟨operator, found⟩
      rcases nextOperator?_eq_some_iff.1 follows with ⟨next, stands, -⟩
      rw [ends _ (peekKind?_eq_some_iff.2 ⟨found, next, rfl⟩)] at stands
      cases stands

/-- Nothing binds tighter than products. -/
theorem nextOperator?_product (tokens : List Token) :
    nextOperator? (some .product) tokens = none := by
  cases follows : nextOperator? (some .product) tokens with
  | none => rfl
  | some pair =>
      rcases nextOperator?_eq_some_iff.1 follows with ⟨-, -, binds, -⟩
      cases kind : pair.1.kind.precedence <;> rw [kind] at binds <;> cases binds

theorem of_mem_productSigns {kind : TokenKind} {operator : BinaryOperator}
    (stands : (kind, operator) ∈ productSigns) :
    kind.binaryOperator? = some operator ∧ operator.precedence = .product := by
  simp only [productSigns, List.mem_cons, Prod.mk.injEq, List.not_mem_nil, or_false] at stands
  rcases stands with ⟨rfl, rfl⟩ | ⟨rfl, rfl⟩ <;> exact ⟨rfl, rfl⟩

theorem of_mem_sumSigns {kind : TokenKind} {operator : BinaryOperator}
    (stands : (kind, operator) ∈ sumSigns) :
    kind.binaryOperator? = some operator ∧ operator.precedence = .sum := by
  simp only [sumSigns, List.mem_cons, Prod.mk.injEq, List.not_mem_nil, or_false] at stands
  rcases stands with ⟨rfl, rfl⟩ | ⟨rfl, rfl⟩ <;> exact ⟨rfl, rfl⟩

/-- How reading gets past a phrase.  A factor is read as an operand.  A term can be what operations
have come to, and an expression too, unless a factor follows that belongs to its last term. -/
def Phrase.Resumes (sourceEnd : Nat) : Phrase → Tree → (tokens rest : List Token) → Prop
  | .factor, tree, tokens, rest => (operand sourceEnd tokens).read? = some (tree, rest)
  | .term, tree, tokens, rest => ∀ bound result, Precedence.product.isAbove bound = true →
    (operations sourceEnd bound tree rest).read? = some result →
      ReadsOperations sourceEnd bound tokens result
  | .expression, tree, tokens, rest => nextOperator? (some .sum) rest = none → ∀ result,
    (operations sourceEnd none tree rest).read? = some result →
      ReadsOperations sourceEnd none tokens result

/-- A phrase that is derived can be read. -/
theorem Phrase.Derives.resumes {phrase : Phrase} (derived : phrase.Derives read tree)
    (leads : Leads read tokens rest) : phrase.Resumes sourceEnd tree tokens rest := by
  induction derived generalizing tokens rest with
  | atom derived =>
      rcases derived with ⟨word⟩
      rcases leads_singleton_iff.1 leads with ⟨found, next, rfl, rfl⟩
      have leaf := (read?_atom_eq_some_iff sourceEnd).2 ⟨_, ⟨word⟩, leads⟩
      rcases word with kind | kind
      · rw [Resumes, operand, peekKind?_eq_some_iff.2 ⟨found, next, kind⟩]
        exact Reply.read?_map_eq_some_iff.2 ⟨_, leaf, rfl⟩
      · rw [Resumes, operand, peekKind?_eq_some_iff.2 ⟨found, next, kind⟩]
        exact Reply.read?_map_eq_some_iff.2 ⟨_, leaf, rfl⟩
  | negation minus _ ih =>
      rcases leads with ⟨sign, next, rfl, leads⟩
      have peek := peekKind?_eq_some_iff.2 ⟨sign, next, minus⟩
      rw [Resumes, operand, peek]
      change (Source.negation sourceEnd tokens).read? = _
      rw [Source.negation, Reply.read?_withNext_eq_some_iff]
      refine ⟨sign, next, ?_⟩
      rw [if_pos minus]
      exact Reply.read?_map_eq_some_iff.2 ⟨_, ih leads, rfl⟩
  | @parenthesis opening closing inside inner opens derived closes ih =>
      rcases leads with ⟨first, next, rfl, leads⟩
      rcases leads_append_iff.1 leads with ⟨middle, leadsInside, behind⟩
      rcases leads_singleton_iff.1 behind with ⟨last, next', rfl, rfl⟩
      have peek := peekKind?_eq_some_iff.2 ⟨first, next, opens⟩
      have ends : EndsExpression (peekKind? middle) := by
        rw [peekKind?_eq_some_iff.2 ⟨last, next', closes⟩]
        rintro kind ⟨⟩
        rfl
      have within := read?_expression_iff.2 (ih leadsInside (nextOperator?_of_ends ends _)
        (inner, middle) (operations_of_end (nextOperator?_of_ends ends _)))
      have nonempty : nextOf? .closeParen first.rest = none := by
        rcases derived.exists_first with ⟨start, _, rfl, starts⟩
        rcases leadsInside with ⟨found, next'', rfl, -⟩
        rw [nextOf?_eq_none_iff]
        intro found' again closes'
        cases next''.symm.trans again
        rw [closes'] at starts
        exact starts
      rw [Resumes, operand, peek]
      change (Source.parenthesis sourceEnd tokens).read? = _
      rw [Source.parenthesis, Reply.read?_withNext_eq_some_iff]
      refine ⟨first, next, ?_⟩
      rw [if_pos opens, nonempty]
      refine Reply.read?_andThen_eq_some_iff.2 ⟨inner, middle, within, ?_⟩
      rw [nextOf?_eq_some_iff.2 ⟨next', closes⟩]
      rfl
  | factor _ ih => exact fun bound result _ last => ⟨_, _, ih leads, last⟩
  | @product sign operator front back lhs rhs _ stands _ ihl ihr =>
      rcases leads_append_iff.1 leads with ⟨middle, leadsLeft, found, next, rfl, leadsRight⟩
      rcases of_mem_productSigns stands with ⟨kind, precedence⟩
      intro bound result binds last
      have follows : nextOperator? bound middle = some (⟨operator, found.token.span⟩, found) :=
        nextOperator?_eq_some_iff.2 ⟨next, kind, precedence ▸ binds, rfl⟩
      refine ihl leadsLeft bound result binds (operations_of_next follows ?_ last)
      refine ⟨rhs, rest, ihr leadsRight, operations_of_end ?_⟩
      rw [precedence]
      exact nextOperator?_product rest
  | term _ ih => exact fun _ result last => ih leads none result rfl last
  | @sum sign operator front back lhs rhs _ stands _ ihl ihr =>
      rcases leads_append_iff.1 leads with ⟨middle, leadsLeft, found, next, rfl, leadsRight⟩
      rcases of_mem_sumSigns stands with ⟨kind, precedence⟩
      intro ends result last
      have follows : nextOperator? none middle = some (⟨operator, found.token.span⟩, found) :=
        nextOperator?_eq_some_iff.2 ⟨next, kind, by rw [precedence]; rfl, rfl⟩
      -- the sign does not bind tighter than itself, so the left operand ends before it
      have apart : nextOperator? (some .sum) middle = none := by
        cases tighter : nextOperator? (some .sum) middle with
        | none => rfl
        | some pair =>
            rcases nextOperator?_eq_some_iff.1 tighter with ⟨next', kind', binds, -⟩
            cases next.symm.trans next'
            rw [← Option.some.inj (kind.symm.trans kind'), precedence] at binds
            cases binds
      refine ihl leadsLeft apart result (operations_of_next follows ?_ last)
      rw [precedence]
      exact ihr leadsRight (some .sum) (rhs, rest) rfl (operations_of_end ends)

end Calculation.Source
