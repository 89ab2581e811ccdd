import Calculation.Text.Span

/-!
Tokens: the words and signs that a source text consists of.

Fixed signs have one or more spellings, listed in `spellings`.  Every other kind is a run of
characters of one class, apart from `unknown`, which holds a single character that starts no other
token.
-/

namespace Calculation.Source

/-- The kinds of tokens. -/
inductive TokenKind where
  | lineBreak | blank
  | equal | notEqual | less | greater | atMost | atLeast | impliedBy
  | plus | minus | times | dividedBy
  | name | numeral
  | comma | colon | openParen | closeParen | openBracket | closeBracket
  | unknown
deriving DecidableEq

namespace TokenKind

def label : TokenKind → String
  | lineBreak => "NewLine"
  | blank => "Whitespace"
  | equal => "Eq"
  | notEqual => "NotEq"
  | less => "Less"
  | greater => "Greater"
  | atMost => "LessEq"
  | atLeast => "GreaterEq"
  | impliedBy => "Implied"
  | plus => "Add"
  | minus => "Sub"
  | times => "Mul"
  | dividedBy => "Div"
  | name => "Name"
  | numeral => "Int"
  | comma => "Comma"
  | colon => "Colon"
  | openParen => "OpenParen"
  | closeParen => "CloseParen"
  | openBracket => "OpenSquare"
  | closeBracket => "CloseSquare"
  | unknown => "Symbol"

/-- Whether tokens of the kind only keep other tokens apart. -/
def isBlank : TokenKind → Bool
  | lineBreak | blank => true
  | _ => false

/-- The spellings of the fixed signs.  A spelling stands before all those it begins with, so the
first one that fits is the longest. -/
def spellings : List (List Char × TokenKind) := [
  (['<', '=', '='], impliedBy), (['⟸'], impliedBy),
  (['=', '='], equal), (['='], equal),
  (['!', '='], notEqual), (['≠'], notEqual),
  (['<', '='], atMost), (['≤'], atMost), (['<'], less),
  (['>', '='], atLeast), (['≥'], atLeast), (['>'], greater),
  (['+'], plus), (['-'], minus),
  (['*'], times), (['⋅'], times), (['/'], dividedBy),
  ([','], comma), ([':'], colon),
  (['('], openParen), ([')'], closeParen),
  (['['], openBracket), ([']'], closeBracket)]

end TokenKind

/-- A token with the region of the source that it was read from and the characters found there. -/
structure Token where
  kind : TokenKind
  span : Span
  lexeme : String
deriving DecidableEq

/-- Whether the token only keeps other tokens apart. -/
def Token.isBlank (token : Token) : Bool := token.kind.isBlank

end Calculation.Source
