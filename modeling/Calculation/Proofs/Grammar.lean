import Calculation.Source.Parser

/-!
The grammar that sources are written in, apart from the way in which they are read.

    expression  = term (('+' | '-') term)*
    term        = factor (('*' | '/') factor)*
    factor      = '-' factor | '(' expression ')' | atom
    comparison  = expression relational-operator expression
    declaration = 'rule' atom '[' (atom (',' atom)*)? ']' ':' comparison
                  ('<==' comparison (',' comparison)*)?

A derivation relates the tokens of a phrase, without any blanks, to the value that they stand for.
The repetitions of terms and factors grow on their right, so that everything before an operator is
its left operand.  Every value holds the regions of the tokens it was derived from.
-/

namespace Calculation.Source

/-! ## Signs -/

/-- The signs between the factors of a term. -/
def productSigns : List (TokenKind × BinaryOperator) :=
  [(.times, .times), (.dividedBy, .dividedBy)]

/-- The signs between the terms of an expression. -/
def sumSigns : List (TokenKind × BinaryOperator) := [(.plus, .plus), (.minus, .minus)]

/-- The signs between the sides of a relation. -/
def relationSigns : List (TokenKind × RelationalOperator) :=
  [(.equal, .equal), (.notEqual, .notEqual), (.less, .less), (.greater, .greater),
    (.atMost, .atMost), (.atLeast, .atLeast)]

/-! ## Expressions -/

/-- A name or a numeral stands for an atom. -/
inductive DerivesAtom : List Token → Atom → Prop
  | intro {token : Token} (word : token.kind = .name ∨ token.kind = .numeral) :
      DerivesAtom [token] ⟨token.lexeme, token.span⟩

/-- The phrases that expressions are made of. -/
inductive Phrase where
  | factor | term | expression

/-- `phrase.Derives tokens tree`: the tokens are such a phrase, and the tree is built like it. -/
inductive Phrase.Derives : Phrase → List Token → Tree → Prop
  | atom {tokens : List Token} {leaf : Atom} (derived : DerivesAtom tokens leaf) :
      Derives .factor tokens (.atom leaf)
  | negation {sign : Token} {tokens : List Token} {operand : Tree} (minus : sign.kind = .minus)
      (factor : Derives .factor tokens operand) :
      Derives .factor (sign :: tokens)
        (.unary ⟨.minus, sign.span⟩ operand (sign.span.through operand.span))
  | parenthesis {opening closing : Token} {tokens : List Token} {inner : Tree}
      (opens : opening.kind = .openParen) (expression : Derives .expression tokens inner)
      (closes : closing.kind = .closeParen) :
      Derives .factor (opening :: (tokens ++ [closing]))
        (.paren inner (opening.span.through closing.span))
  /-- A term of one factor. -/
  | factor {tokens : List Token} {tree : Tree} (factor : Derives .factor tokens tree) :
      Derives .term tokens tree
  /-- A term with one factor more. -/
  | product {sign : Token} {operator : BinaryOperator} {front back : List Token} {lhs rhs : Tree}
      (term : Derives .term front lhs) (stands : (sign.kind, operator) ∈ productSigns)
      (factor : Derives .factor back rhs) :
      Derives .term (front ++ sign :: back)
        (.binary lhs ⟨operator, sign.span⟩ rhs (lhs.span.through rhs.span))
  /-- An expression of one term. -/
  | term {tokens : List Token} {tree : Tree} (term : Derives .term tokens tree) :
      Derives .expression tokens tree
  /-- An expression with one term more. -/
  | sum {sign : Token} {operator : BinaryOperator} {front back : List Token} {lhs rhs : Tree}
      (expression : Derives .expression front lhs) (stands : (sign.kind, operator) ∈ sumSigns)
      (term : Derives .term back rhs) :
      Derives .expression (front ++ sign :: back)
        (.binary lhs ⟨operator, sign.span⟩ rhs (lhs.span.through rhs.span))

/-! ## Relations and rules -/

/-- Two expressions with a relational operator between them. -/
inductive DerivesComparison : List Token → Comparison → Prop
  | intro {sign : Token} {operator : RelationalOperator} {front back : List Token} {lhs rhs : Tree}
      (left : Phrase.expression.Derives front lhs) (stands : (sign.kind, operator) ∈ relationSigns)
      (right : Phrase.expression.Derives back rhs) :
      DerivesComparison (front ++ sign :: back)
        ⟨lhs, ⟨operator, sign.span⟩, rhs, lhs.span.through rhs.span⟩

/-- One or more items with a delimiter between them. -/
inductive DerivesList {α : Type} (item : List Token → α → Prop) (delimiter : TokenKind) :
    List Token → List α → Prop
  | last {tokens : List Token} {value : α} (derived : item tokens value) :
      DerivesList item delimiter tokens [value]
  | more {sign : Token} {front back : List Token} {value : α} {values : List α}
      (derived : item front value) (delimits : sign.kind = delimiter)
      (rest : DerivesList item delimiter back values) :
      DerivesList item delimiter (front ++ sign :: back) (value :: values)

/-- The atoms between the brackets of a list of quantified symbols, if there are any. -/
inductive DerivesAtoms : List Token → List Atom → Prop
  | none : DerivesAtoms [] []
  | some {tokens : List Token} {atoms : List Atom}
      (derived : DerivesList DerivesAtom .comma tokens atoms) : DerivesAtoms tokens atoms

/-- A list of quantified symbols with its brackets. -/
inductive DerivesQuantifiers : List Token → List Atom → Prop
  | intro {opening closing : Token} {tokens : List Token} {atoms : List Atom}
      (opens : opening.kind = .openBracket) (derived : DerivesAtoms tokens atoms)
      (closes : closing.kind = .closeBracket) :
      DerivesQuantifiers (opening :: (tokens ++ [closing])) atoms

/-- The conditions of a rule, if there are any. -/
inductive DerivesConditions : List Token → List Comparison → Prop
  | none : DerivesConditions [] []
  | some {sign : Token} {tokens : List Token} {conditions : List Comparison}
      (implied : sign.kind = .impliedBy)
      (derived : DerivesList DerivesComparison .comma tokens conditions) :
      DerivesConditions (sign :: tokens) conditions

/-- A rule with its name, the symbols it is quantified over, its relation and its conditions. -/
inductive DerivesDeclaration : List Token → Declaration → Prop
  | intro {keyword colon : Token} {called listed asserted needed : List Token} {name : Atom}
      {atoms : List Atom} {corollary : Comparison} {conditions : List Comparison}
      (starts : keyword.kind = .name ∧ keyword.lexeme = "rule") (names : DerivesAtom called name)
      (quantifies : DerivesQuantifiers listed atoms) (parts : colon.kind = .colon)
      (asserts : DerivesComparison asserted corollary)
      (needs : DerivesConditions needed conditions) :
      DerivesDeclaration (keyword :: (called ++ (listed ++ (colon :: (asserted ++ needed)))))
        ⟨name, atoms, corollary, conditions,
          keyword.span.through ((conditions.getLast?.map (·.span)).getD corollary.span)⟩

/-! ## What phrases start with -/

/-- The kinds of tokens that an expression can start with. -/
def TokenKind.StartsExpression : TokenKind → Prop
  | .name | .numeral | .minus | .openParen => True
  | _ => False

/-- The first token of a phrase is one that an expression can start with. -/
theorem Phrase.Derives.exists_first {phrase : Phrase} {tokens : List Token} {tree : Tree}
    (derived : phrase.Derives tokens tree) :
    ∃ first rest, tokens = first :: rest ∧ first.kind.StartsExpression := by
  induction derived with
  | atom derived =>
      rcases derived with ⟨word⟩
      refine ⟨_, [], rfl, ?_⟩
      rcases word with word | word <;> rw [word] <;> exact trivial
  | negation minus => exact ⟨_, _, rfl, by rw [minus]; exact trivial⟩
  | parenthesis opens => exact ⟨_, _, rfl, by rw [opens]; exact trivial⟩
  | factor _ ih => exact ih
  | term _ ih => exact ih
  | product _ _ _ ih =>
      rcases ih with ⟨first, rest, rfl, starts⟩
      exact ⟨first, _, rfl, starts⟩
  | sum _ _ _ ih =>
      rcases ih with ⟨first, rest, rfl, starts⟩
      exact ⟨first, _, rfl, starts⟩

end Calculation.Source
