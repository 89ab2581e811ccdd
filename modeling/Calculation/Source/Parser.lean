import Calculation.Source.Lexer
import Calculation.Source.Reply
import Calculation.Source.Tree

/-!
The grammar of expressions, relations and rules.

    expression  = term (('+' | '-') term)*
    term        = factor (('*' | '/') factor)*
    factor      = '-' factor | '(' expression ')' | atom
    comparison  = expression relational-operator expression
    declaration = 'rule' atom '[' (atom (',' atom)*)? ']' ':' comparison
                  ('<==' comparison (',' comparison)*)?

Blank tokens may stand anywhere and mean nothing.  Binary operators of one precedence group to the
left.  Terms are not read as such: the operations of an expression are read by one recursion, which
compares the precedences of their operators (`operations`).  Every parser takes the end of the
source, which is where a missing token is reported, and the tokens to read from; a parser that fails
says before which token it stopped.
-/

namespace Calculation.Source

/-! ## Atoms and operators -/

def atom (sourceEnd : Nat) (tokens : List Token) : Reply tokens Atom :=
  withNext sourceEnd tokens fun token rest _ =>
    match token.kind with
    | .name | .numeral => .pure ⟨token.lexeme, token.span⟩
    | _ => .failed (unexpected [.name, .numeral] token) rest

def operator {Operator : Type} (operator? : TokenKind → Option Operator)
    (expected : List TokenKind) (sourceEnd : Nat) (tokens : List Token) :
    Reply tokens (Placed Operator) :=
  withNext sourceEnd tokens fun token rest _ =>
    match operator? token.kind with
    | some kind => .pure ⟨kind, token.span⟩
    | none => .failed (unexpected expected token) rest

def unaryOperator (sourceEnd : Nat) (tokens : List Token) : Reply tokens (Placed UnaryOperator) :=
  operator TokenKind.unaryOperator? [.minus] sourceEnd tokens

def binaryOperator (sourceEnd : Nat) (tokens : List Token) :
    Reply tokens (Placed BinaryOperator) :=
  operator TokenKind.binaryOperator? [.times, .dividedBy, .plus, .minus] sourceEnd tokens

def relationalOperator (sourceEnd : Nat) (tokens : List Token) :
    Reply tokens (Placed RelationalOperator) :=
  operator TokenKind.relationalOperator?
    [.equal, .notEqual, .less, .greater, .atMost, .atLeast] sourceEnd tokens

/-! ## Expressions -/

/-- Whether operators of the precedence bind tighter than those of a bound.  All do if there is no
bound. -/
def Precedence.isAbove : Precedence → Option Precedence → Bool
  | _, none => true
  | .product, some .sum => true
  | _, some _ => false

/-- The binary operator that comes next, if it binds tighter than the bound, and where it stands. -/
def nextOperator? (bound : Option Precedence) (tokens : List Token) :
    Option (Placed BinaryOperator × Next tokens) := do
  let found ← next? tokens
  let kind ← found.token.kind.binaryOperator?
  if kind.precedence.isAbove bound then some (⟨kind, found.token.span⟩, found) else none

def Tree.join (lhs : Tree) (operator : Placed BinaryOperator) (rhs : Tree) : Tree :=
  .binary lhs operator rhs (lhs.span.through rhs.span)

def Tree.negated (sign : Span) (operand : Tree) : Tree :=
  .unary ⟨.minus, sign⟩ operand (sign.through operand.span)

mutual

/-- Reads an expression: an operand and the operations that follow it. -/
def expression (sourceEnd : Nat) (tokens : List Token) : Reply tokens Tree :=
  (operand sourceEnd tokens).andThen fun first rest _ => operations sourceEnd none first rest
termination_by 5 * tokens.length + 4

/-- Reads the operations that follow `lhs`, as long as their operators bind tighter than the bound.

The right operand of an operator takes the operations with it whose operators bind tighter than
that one.  An operator that binds as tightly is left over, and takes what has been read so far as
its left operand. -/
def operations (sourceEnd : Nat) (bound : Option Precedence) (lhs : Tree) (tokens : List Token) :
    Reply tokens Tree :=
  match nextOperator? bound tokens with
  | none => .pure lhs
  | some (operator, ⟨_, rest, lt⟩) =>
    ((operand sourceEnd rest).andThen fun first rest' _ =>
      (operations sourceEnd (some operator.kind.precedence) first rest').andThen fun rhs rest'' _ =>
        operations sourceEnd bound (lhs.join operator rhs) rest'').within (Nat.le_of_lt lt)
termination_by 5 * tokens.length + 3

/-- Reads an operand: a negation, an expression in parentheses or an atom. -/
def operand (sourceEnd : Nat) (tokens : List Token) : Reply tokens Tree :=
  match peekKind? tokens with
  | some .minus => negation sourceEnd tokens
  | some .openParen => parenthesis sourceEnd tokens
  | _ => (atom sourceEnd tokens).map .atom
termination_by 5 * tokens.length + 2

/-- Reads a minus sign and the operand after it. -/
def negation (sourceEnd : Nat) (tokens : List Token) : Reply tokens Tree :=
  withNext sourceEnd tokens fun sign rest _ =>
    if sign.kind = .minus then (operand sourceEnd rest).map (Tree.negated sign.span)
    else .failed (unexpected [.minus] sign) rest
termination_by 5 * tokens.length + 1

def parenthesis (sourceEnd : Nat) (tokens : List Token) : Reply tokens Tree :=
  withNext sourceEnd tokens fun opening rest _ =>
    if opening.kind = .openParen then
      match nextOf? .closeParen rest with
      | some closing =>
        .failed (.pointingAt (opening.span.through closing.token.span) .emptyParenthesis)
          closing.rest
      | none =>
        (expression sourceEnd rest).andThen fun inner rest' _ =>
          match nextOf? .closeParen rest' with
          | some closing =>
            .done (.paren inner (opening.span.through closing.token.span)) closing.rest
              (Nat.le_of_lt closing.lt)
          | none => .failed (.pointingAt opening.span .unclosedParenthesis) rest'
    else .failed (unexpected [.openParen] opening) rest
termination_by 5 * tokens.length

end

/-! ## Relations and rules -/

def comparison (sourceEnd : Nat) (tokens : List Token) : Reply tokens Comparison :=
  (expression sourceEnd tokens).andThen fun lhs rest _ =>
    (relationalOperator sourceEnd rest).andThen fun operator rest _ =>
      (expression sourceEnd rest).map fun rhs => ⟨lhs, operator, rhs, lhs.span.through rhs.span⟩

/-- Reads further items, each after a delimiter. -/
def moreItems {α : Type} (item : (tokens : List Token) → Reply tokens α) (delimiter : TokenKind)
    (tokens : List Token) : Reply tokens (List α) :=
  match nextOf? delimiter tokens with
  | none => .pure []
  | some ⟨_, rest, lt⟩ =>
    ((item rest).andThen fun value rest' _ =>
      (moreItems item delimiter rest').map fun values => value :: values).within (Nat.le_of_lt lt)
termination_by tokens.length

/-- Reads one or more items with a delimiter between them. -/
def delimited {α : Type} (item : (tokens : List Token) → Reply tokens α) (delimiter : TokenKind)
    (tokens : List Token) : Reply tokens (List α) :=
  (item tokens).andThen fun value rest _ =>
    (moreItems item delimiter rest).map fun values => value :: values

/-- Reads the atoms between the brackets of a list of quantified symbols. -/
def quantifiedAtoms (sourceEnd : Nat) (tokens : List Token) : Reply tokens (List Atom) :=
  if peekKind? tokens = some .closeBracket then .pure []
  else delimited (atom sourceEnd) .comma tokens

/-- Reads a list of quantified symbols with its brackets. -/
def quantifiers (sourceEnd : Nat) (tokens : List Token) : Reply tokens (List Atom) :=
  (tokenOf .openBracket [.openBracket] sourceEnd tokens).andThen fun opening rest _ =>
    (quantifiedAtoms sourceEnd rest).andThen fun atoms rest' _ =>
      match nextOf? .closeBracket rest' with
      | some closing => .done atoms closing.rest (Nat.le_of_lt closing.lt)
      | none => .failed (.pointingAt opening.span .unclosedQuantifierList) rest'

def conditions (sourceEnd : Nat) (tokens : List Token) : Reply tokens (List Comparison) :=
  match nextOf? .impliedBy tokens with
  | some ⟨_, rest, lt⟩ =>
    (delimited (comparison sourceEnd) .comma rest).within (Nat.le_of_lt lt)
  | none => .pure []

/-- Reads the keyword that starts a rule. -/
def ruleKeyword (sourceEnd : Nat) (tokens : List Token) : Reply tokens Token :=
  withNext sourceEnd tokens fun token rest _ =>
    if token.kind = .name ∧ token.lexeme = Declaration.keyword then .pure token
    else .failed (.pointingAt token.span (.expectedKeyword Declaration.keyword)) rest

def declaration (sourceEnd : Nat) (tokens : List Token) : Reply tokens Declaration :=
  (ruleKeyword sourceEnd tokens).andThen fun keyword rest _ =>
    (atom sourceEnd rest).andThen fun name rest _ =>
      (quantifiers sourceEnd rest).andThen fun quantified rest _ =>
        (tokenOf .colon [.colon] sourceEnd rest).andThen fun _ rest _ =>
          (comparison sourceEnd rest).andThen fun corollary rest _ =>
            (conditions sourceEnd rest).map fun conditions =>
              let last := (conditions.getLast?.map (·.span)).getD corollary.span
              ⟨name, quantified, corollary, conditions, keyword.span.through last⟩

/-! ## Whole sources -/

/-- Reads a value that no token but blanks may follow. -/
def complete {α : Type} (parser : (sourceEnd : Nat) → (tokens : List Token) → Reply tokens α)
    (sourceEnd : Nat) (tokens : List Token) : Reply tokens α :=
  (parser sourceEnd tokens).andThen fun value rest _ =>
    match skipBlanks rest with
    | [] => .done value [] (Nat.zero_le _)
    | token :: rest' => .failed (.pointingAt token.span .expectedEnd) (token :: rest')

/-- Reads a value, or else leaves every token where it is. -/
def attempt {α : Type} (parser : (sourceEnd : Nat) → (tokens : List Token) → Reply tokens α)
    (sourceEnd : Nat) (tokens : List Token) : Reply tokens α :=
  match parser sourceEnd tokens with
  | .done value rest le => .done value rest le
  | .failed diagnostic _ => .failed diagnostic tokens

def parse {α : Type} (parser : (sourceEnd : Nat) → (tokens : List Token) → Reply tokens α)
    (source : String) : Except Diagnostic α :=
  let tokens := tokenize source
  (complete parser (endOf tokens) tokens).outcome

end Calculation.Source
