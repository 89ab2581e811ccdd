import Calculation.Proofs.Lexing
import Calculation.Proofs.Parsing
import Calculation.Source.Reading

/-!
Texts of expressions, relations and links are read as what they are the texts of.

This is so for what sources can say: words, the four operations, the minus sign before an operand,
and the six comparisons (`Expr.Plain`, `Relation.Plain`, `Link.Plain`).  The text of an expression
is a factor of the grammar, since every operation in it has its parentheses, so it can be an operand
in the text of any other.

* `Expr.Plain.readable`: how the text of an expression is cut and derived.
* `parse_text_eq_ok_iff_plain`: reading undoes writing for plain values and for no others, and only
  plain values are ever read.
-/

namespace Calculation

open Source Text

/-! ## What sources can say -/

/-- Expressions that consist of words and the standard operations. -/
inductive Expr.Plain : Expr → Prop
  | atom {name : String} (word : IsWord name) : Plain (.atom { name := name })
  | negation {operand : Expr} (plain : Plain operand) : Plain (.unary .minus operand)
  | operation {operator : Symbol} {lhs rhs : Expr}
      (standard : operator ∈ [Symbol.product, .quotient, .sum, .minus]) (left : Plain lhs)
      (right : Plain rhs) : Plain (.binary operator lhs rhs)

/-- An equation or inequation reads from left to right; an order can have any flags. -/
def Comparator.Plain (comparator : Comparator) : Prop :=
  comparator.symbol = .equality ∧ comparator.reversed = false ∨ comparator.symbol = .less

structure Relation.Plain (relation : Relation) : Prop where
  lhs : relation.lhs.Plain
  comparator : relation.comparator.Plain
  rhs : relation.rhs.Plain

structure Link.Plain (link : Link) : Prop where
  comparator : link.comparator.Plain
  target : link.target.Plain

/-! ## Signs in a text -/

variable {offset : Nat} {rest : List Char}

theorem exists_symbol_eq_iff {symbol : Symbol} :
    (∃ operator : BinaryOperator, operator.symbol = symbol) ↔
      symbol ∈ [Symbol.product, .quotient, .sum, .minus] := by
  constructor
  · rintro ⟨operator, rfl⟩
    cases operator <;> decide
  · simp only [List.mem_cons, List.not_mem_nil, or_false]
    rintro (rfl | rfl | rfl | rfl)
    · exact ⟨.times, rfl⟩
    · exact ⟨.dividedBy, rfl⟩
    · exact ⟨.plus, rfl⟩
    · exact ⟨.minus, rfl⟩

theorem exists_comparator_eq_iff {comparator : Comparator} :
    (∃ operator : RelationalOperator, operator.comparator = comparator) ↔ comparator.Plain := by
  constructor
  · rintro ⟨operator, rfl⟩
    cases operator
    · exact .inl ⟨rfl, rfl⟩
    · exact .inl ⟨rfl, rfl⟩
    all_goals exact .inr rfl
  · obtain ⟨symbol, reversed, negated⟩ := comparator
    rintro (⟨rfl, rfl⟩ | rfl)
    · cases negated
      · exact ⟨.equal, rfl⟩
      · exact ⟨.notEqual, rfl⟩
    · cases reversed <;> cases negated
      · exact ⟨.less, rfl⟩
      · exact ⟨.atLeast, rfl⟩
      · exact ⟨.greater, rfl⟩
      · exact ⟨.atMost, rfl⟩

/-- The name of an operator is cut off as its sign. -/
theorem exists_cuts_operator (operator : BinaryOperator) :
    ∃ sign : Token, sign.kind.binaryOperator? = some operator ∧
      Cuts offset operator.symbol.name.toList rest [sign] := by
  cases operator
  · exact ⟨.ofLexeme .times offset ['⋅'], rfl, .sign rfl rfl⟩
  · exact ⟨.ofLexeme .dividedBy offset ['/'], rfl, .sign rfl rfl⟩
  · exact ⟨.ofLexeme .plus offset ['+'], rfl, .sign rfl rfl⟩
  · exact ⟨.ofLexeme .minus offset ['-'], rfl, .sign rfl rfl⟩

/-- The text of a comparison is cut off as its sign if a space follows, so that no sign with more
characters is read. -/
theorem exists_cuts_comparator (operator : RelationalOperator) :
    ∃ sign : Token, (sign.kind, operator) ∈ relationSigns ∧
      Cuts offset operator.comparator.text.toList (' ' :: rest) [sign] := by
  simp only [mem_relationSigns_iff]
  cases operator
  · exact ⟨.ofLexeme .equal offset ['='], rfl, .sign rfl rfl⟩
  · exact ⟨.ofLexeme .notEqual offset ['≠'], rfl, .sign rfl rfl⟩
  · exact ⟨.ofLexeme .less offset ['<'], rfl, .sign rfl rfl⟩
  · exact ⟨.ofLexeme .greater offset ['>'], rfl, .sign rfl rfl⟩
  · exact ⟨.ofLexeme .atMost offset ['≤'], rfl, .sign rfl rfl⟩
  · exact ⟨.ofLexeme .atLeast offset ['≥'], rfl, .sign rfl rfl⟩

/-! ## Reading what was written -/

/-- An expression in parentheses is a factor that stands for the same. -/
theorem exists_factor_paren {text : List Char} {tokens : List Token} {inner : Tree}
    (cuts : Cuts (offset + byteLength ['(']) text (')' :: rest) tokens)
    (derived : Phrase.expression.Derives tokens inner) :
    ∃ tokens' tree, Cuts offset ('(' :: (text ++ [')'])) rest tokens' ∧
      Phrase.factor.Derives tokens' tree ∧ tree.toExpr = inner.toExpr := by
  have closed : Cuts offset (['('] ++ (text ++ [')'])) rest _ :=
    .append (.sign rfl rfl) (cuts.append (.sign rfl rfl))
  exact ⟨_, _, closed, .parenthesis rfl derived rfl, rfl⟩

/-- Wherever the text of the expression stands, it is cut into the tokens of a factor that stands
for the expression, as long as what comes next does not go on with its last word. -/
def Expr.Readable (expr : Expr) : Prop :=
  ∀ (offset : Nat) (rest : List Char), Stops continuesName rest →
    ∃ tokens tree, Cuts offset expr.text.toList rest tokens ∧
      Phrase.factor.Derives tokens tree ∧ tree.toExpr = expr

/-- Two expressions with a sign between them are cut into two factors and the sign. -/
theorem Expr.Readable.between {lhs rhs : Expr} (left : lhs.Readable) (right : rhs.Readable)
    {text : List Char} {stands : Token → Prop}
    (centre : ∀ offset rest, ∃ sign, stands sign ∧ Cuts offset text (' ' :: rest) [sign])
    (offset : Nat) (stops : Stops continuesName rest) :
    ∃ front sign back treeLeft treeRight,
      Cuts offset (lhs.text.toList ++ ' ' :: (text ++ ' ' :: rhs.text.toList)) rest
        (front ++ sign :: back) ∧
      Phrase.factor.Derives front treeLeft ∧ stands sign ∧ Phrase.factor.Derives back treeRight ∧
      treeLeft.toExpr = lhs ∧ treeRight.toExpr = rhs := by
  obtain ⟨front, treeLeft, cutsLeft, derivedLeft, sameLeft⟩ := left offset
    (' ' :: (text ++ ' ' :: (rhs.text.toList ++ rest))) (stops_cons rfl _)
  obtain ⟨sign, stands, cutsSign⟩ := centre
    (offset + byteLength lhs.text.toList + byteLength [' ']) (rhs.text.toList ++ rest)
  obtain ⟨back, treeRight, cutsRight, derivedRight, sameRight⟩ := right
    (offset + byteLength lhs.text.toList + byteLength [' '] + byteLength text + byteLength [' '])
    rest stops
  exact ⟨front, sign, back, treeLeft, treeRight, cutsLeft.between cutsSign cutsRight, derivedLeft,
    stands, derivedRight, sameLeft, sameRight⟩

theorem Expr.Plain.readable {expr : Expr} (plain : expr.Plain) : expr.Readable := by
  induction plain with
  | atom word =>
      intro offset rest stops
      obtain ⟨token, kind, rfl, cuts⟩ := word.exists_cuts offset stops
      exact ⟨[token], _, cuts, .atom ⟨kind⟩, rfl⟩
  | @negation operand _ ih =>
      intro offset rest stops
      obtain ⟨inside, inner, cuts, derived, rfl⟩ :=
        ih (offset + byteLength ['-'] + byteLength ['(']) (')' :: rest) (stops_cons rfl rest)
      obtain ⟨tokens, tree, cuts, derived, same⟩ :=
        exists_factor_paren cuts (.term (.factor derived))
      have signed := Cuts.append (.sign rfl rfl) cuts
      have parts : (Expr.unary .minus inner.toExpr).text.toList =
          ['-'] ++ '(' :: (inner.toExpr.text.toList ++ [')']) := by
        simp [Expr.text, Symbol.minus]
      rw [parts]
      exact ⟨_, _, signed, .negation rfl derived, congrArg _ same⟩
  | @operation symbol lhs rhs standard _ _ ihl ihr =>
      intro offset rest stops
      obtain ⟨operator, rfl⟩ := exists_symbol_eq_iff.2 standard
      obtain ⟨front, sign, back, left, right, cuts, derivedLeft, stands, derivedRight, rfl, rfl⟩ :=
        ihl.between ihr (fun _ _ => exists_cuts_operator operator) (offset + byteLength ['('])
          (stops_cons (c := ')') rfl rest)
      have joined := Phrase.Derives.join stands (derivedLeft.of_factor _) (derivedRight.of_factor _)
      have whole : (Phrase.above none).Derives _ _ := joined.to_above rfl
      have parts : (Expr.binary operator.symbol left.toExpr right.toExpr).text.toList =
          '(' :: ((left.toExpr.text.toList ++ ' ' :: (operator.symbol.name.toList ++ ' ' ::
            right.toExpr.text.toList)) ++ [')']) := by
        simp [Expr.text]
      rw [parts]
      exact exists_factor_paren cuts whole

/-! ## Whole texts -/

theorem map_eq_ok_iff {ε α β : Type} {f : α → β} {result : Except ε α} {made : β} :
    result.map f = .ok made ↔ ∃ value, result = .ok value ∧ f value = made := by
  cases result <;> simp [Except.map]

theorem Expr.parse_eq_ok_iff {source : String} {expr : Expr} :
    Expr.parse source = .ok expr ↔
      ∃ tree, Phrase.expression.Derives (significant (tokenize source)) tree ∧
        tree.toExpr = expr := by
  have ends : EndsExpression none := nofun
  simp only [Expr.parse, map_eq_ok_iff, reads_expression.parse_eq_ok_iff ends]

theorem Relation.parse_eq_ok_iff {source : String} {relation : Relation} :
    Relation.parse source = .ok relation ↔
      ∃ read, DerivesComparison (significant (tokenize source)) read ∧
        read.toRelation = relation := by
  have ends : EndsExpression none := nofun
  simp only [Relation.parse, map_eq_ok_iff, reads_comparison.parse_eq_ok_iff ends]

theorem Rule.parse_eq_ok_iff {source : String} {rule : Rule} :
    Rule.parse source = .ok rule ↔ ∃ declaration,
      DerivesDeclaration (significant (tokenize source)) declaration ∧
        declaration.toRule = .ok rule := by
  rw [Rule.parse]
  constructor
  · intro read
    cases parsed : Source.parse declaration source with
    | error diagnostic =>
        rw [parsed] at read
        cases read
    | ok found =>
        rw [parsed] at read
        exact ⟨found, (reads_declaration.parse_eq_ok_iff rfl).1 parsed, read⟩
  · rintro ⟨found, derived, made⟩
    rw [(reads_declaration.parse_eq_ok_iff rfl).2 derived]
    exact made

theorem Expr.Plain.parse_text {expr : Expr} (plain : expr.Plain) :
    Expr.parse expr.text = .ok expr := by
  obtain ⟨tokens, tree, cuts, derived, rfl⟩ := plain.readable 0 [] nofun
  rw [Expr.parse_eq_ok_iff, tokenize, cuts.significant_eq]
  exact ⟨tree, .term (.factor derived), rfl⟩

theorem Relation.Plain.parse_text {relation : Relation} (plain : relation.Plain) :
    Relation.parse relation.text = .ok relation := by
  obtain ⟨lhs, comparator, rhs⟩ := relation
  obtain ⟨operator, rfl⟩ := exists_comparator_eq_iff.2 plain.comparator
  have ends : Stops continuesName [] := nofun
  obtain ⟨front, sign, back, left, right, cuts, derivedLeft, stands, derivedRight, rfl, rfl⟩ :=
    plain.lhs.readable.between plain.rhs.readable (fun _ _ => exists_cuts_comparator operator) 0
      ends
  have parts : (Relation.mk left.toExpr operator.comparator right.toExpr).text.toList =
      left.toExpr.text.toList ++ ' ' :: (operator.comparator.text.toList ++ ' ' ::
        right.toExpr.text.toList) := by
    simp [Relation.text]
  rw [Relation.parse_eq_ok_iff, tokenize, parts, cuts.significant_eq]
  exact ⟨_, .intro (derivedLeft.of_factor _) stands (derivedRight.of_factor _), rfl⟩

/-! ## What is read is plain -/

/-- The names and numerals among the tokens are words by themselves. -/
def Worded (tokens : List Token) : Prop :=
  ∀ token ∈ tokens, token.kind = .name ∨ token.kind = .numeral → IsWord token.lexeme

theorem worded_significant (source : String) : Worded (significant (tokenize source)) :=
  fun _ stands word => isWord_of_mem_tokenize word (List.mem_filter.1 stands).1

theorem plain_binary {operator : BinaryOperator} {lhs rhs : Expr} (left : lhs.Plain)
    (right : rhs.Plain) : (Expr.binary operator.symbol lhs rhs).Plain :=
  .operation (exists_symbol_eq_iff.1 ⟨operator, rfl⟩) left right

theorem Source.Phrase.Derives.plain {phrase : Phrase} {tokens : List Token} {tree : Tree}
    (derived : phrase.Derives tokens tree) (worded : Worded tokens) : tree.toExpr.Plain := by
  induction derived with
  | atom derived =>
      obtain ⟨word⟩ := derived
      exact .atom (worded _ (List.mem_singleton_self _) word)
  | negation _ _ ih => exact .negation (ih fun token stands => worded token (.tail _ stands))
  | parenthesis _ _ _ ih =>
      exact ih fun token stands =>
        worded token (List.mem_cons_of_mem _ (List.mem_append_left _ stands))
  | factor _ ih => exact ih worded
  | term _ ih => exact ih worded
  | product _ _ _ ihl ihr | sum _ _ _ ihl ihr =>
      refine plain_binary (ihl fun token stands => ?_) (ihr fun token stands => ?_)
      · exact worded token (List.mem_append_left _ stands)
      · exact worded token (List.mem_append_right _ (.tail _ stands))

theorem Expr.plain_of_parse {source : String} {expr : Expr}
    (read : Expr.parse source = .ok expr) : expr.Plain := by
  obtain ⟨tree, derived, rfl⟩ := Expr.parse_eq_ok_iff.1 read
  exact derived.plain (worded_significant source)

theorem Relation.plain_of_parse {source : String} {relation : Relation}
    (read : Relation.parse source = .ok relation) : relation.Plain := by
  obtain ⟨comparison, derived, rfl⟩ := Relation.parse_eq_ok_iff.1 read
  have worded := worded_significant source
  generalize significant (tokenize source) = tokens at derived worded
  obtain ⟨left, stands, right⟩ := derived
  refine ⟨left.plain fun token stands => ?_, exists_comparator_eq_iff.1 ⟨_, rfl⟩,
    right.plain fun token stands => ?_⟩
  · exact worded token (List.mem_append_left _ stands)
  · exact worded token (List.mem_append_right _ (.tail _ stands))

/-! ## Links -/

theorem isWord_placeholder : IsWord Symbol.placeholder.name :=
  isWord_iff.2 ⟨.name, .inl rfl, '_', ['_'], continuesName, rfl, rfl, List.all_eq_true.1 rfl⟩

/-- The text of a link is that of its relation from the placeholder. -/
theorem Link.text_eq (link : Link) :
    link.text = (link.relationFrom (.atom .placeholder)).text := by
  simp [Link.text, Link.tailText, Link.relationFrom, Relation.text, Expr.text, String.append_assoc]

theorem Link.toLink_relationFrom (link : Link) :
    (link.relationFrom (.atom .placeholder)).toLink = .ok link :=
  if_pos rfl

theorem Link.Plain.parse_text {link : Link} (plain : link.Plain) :
    (Relation.parse link.text).bind Relation.toLink = .ok link := by
  have whole : (link.relationFrom (.atom .placeholder)).Plain :=
    ⟨.atom isWord_placeholder, plain.comparator, plain.target⟩
  rw [link.text_eq, whole.parse_text]
  exact link.toLink_relationFrom

/-! ## Reading and writing -/

/-- Reading the text of a value gives the value back exactly if sources can say it, and nothing else
is ever read, so that what is read from a source is also read from its own text. -/
theorem parse_text_eq_ok_iff_plain :
    (∀ expr : Expr, Expr.parse expr.text = .ok expr ↔ expr.Plain) ∧
      (∀ relation : Relation, Relation.parse relation.text = .ok relation ↔ relation.Plain) ∧
      (∀ link : Link,
        (Relation.parse link.text).bind Relation.toLink = .ok link ↔ link.Plain) ∧
      (∀ source expr, Expr.parse source = .ok expr →
        expr.Plain ∧ Expr.parse expr.text = .ok expr) ∧
      (∀ source relation, Relation.parse source = .ok relation →
        relation.Plain ∧ Relation.parse relation.text = .ok relation) := by
  refine ⟨fun expr => ?_, fun relation => ?_, fun link => ?_, fun source expr read => ?_,
    fun source relation read => ?_⟩
  · exact ⟨Expr.plain_of_parse, Expr.Plain.parse_text⟩
  · exact ⟨Relation.plain_of_parse, Relation.Plain.parse_text⟩
  · refine ⟨fun read => ?_, Link.Plain.parse_text⟩
    cases parsed : Relation.parse link.text with
    | error diagnostic => rw [parsed] at read; cases read
    | ok relation =>
        have plain := Relation.plain_of_parse parsed
        rw [parsed] at read
        change relation.toLink = .ok link at read
        unfold Relation.toLink at read
        split at read
        · cases read
          exact ⟨plain.comparator, plain.rhs⟩
        · cases read
  · have plain := Expr.plain_of_parse read
    exact ⟨plain, plain.parse_text⟩
  · have plain := Relation.plain_of_parse read
    exact ⟨plain, plain.parse_text⟩

/-- The relation `-((x' ⋅ 10)) ≥ x'` is read from its text. -/
theorem parse_text_eq_ok_order :
    Relation.text ⟨.unary .minus (.binary .product (.named "x'") (.named "10")), .atLeast,
        .named "x'"⟩ = "-((x' ⋅ 10)) ≥ x'" ∧
      Relation.parse "-((x' ⋅ 10)) ≥ x'" =
        .ok ⟨.unary .minus (.binary .product (.named "x'") (.named "10")), .atLeast,
          .named "x'"⟩ := by
  have name : IsWord "x'" :=
    isWord_iff.2 ⟨.name, .inl rfl, 'x', ['\''], continuesName, rfl, rfl, List.all_eq_true.1 rfl⟩
  have numeral : IsWord "10" :=
    isWord_iff.2 ⟨.numeral, .inr rfl, '1', ['0'], Char.isDigit, rfl, rfl, List.all_eq_true.1 rfl⟩
  have text : Relation.text ⟨.unary .minus (.binary .product (.named "x'") (.named "10")), .atLeast,
      .named "x'"⟩ = "-((x' ⋅ 10)) ≥ x'" := by decide
  refine ⟨text, ?_⟩
  rw [← text]
  refine (parse_text_eq_ok_iff_plain.2.1 _).2 ⟨?_, .inr rfl, .atom name⟩
  exact .negation (.operation (by decide) (.atom name) (.atom numeral))

end Calculation
