import Calculation.Source.Token

/-!
Diagnostics: what can be wrong with what a user writes, and how that is said.

A `Cause` says what is wrong, and its texts are functions of it: one `message`, a label for each
region of the source it points at, and sometimes a `help` and a `note`.  A `Diagnostic` adds those
regions.  Causes that come from values and not from a source have no regions, and then there is
nothing to put a label, a help or a note beside: only the message is shown.
-/

namespace Calculation

open Source (TokenKind)

/-- What is wrong. -/
inductive Diagnostic.Cause where
  /-- The source ends where more was needed. -/
  | unexpectedEnd
  /-- The source goes on where it should have ended. -/
  | expectedEnd
  /-- A token of the kind `found` stands where one of the kinds in `expected` was needed. -/
  | unexpectedToken (expected : List TokenKind) (found : TokenKind)
  | expectedKeyword (keyword : String)
  | unclosedParenthesis
  | emptyParenthesis
  /-- The bracket of a list of quantified symbols is not closed. -/
  | unclosedQuantifierList
  /-- The left side of a relation, which reads `found`, is not the placeholder. -/
  | missingPlaceholder (found : String)
  /-- A rule quantifies over a symbol that it does not mention. -/
  | unusedQuantifier (name : String)
  | duplicateQuantifier (name : String)
  /-- The first word of a line is no command; `suggestion` is one that is spelled much like it. -/
  | unknownCommand (name : String) (suggestion : Option String)
  | missingArgument (command argument : String)
  | invalidArgument (expected : String)
  | invalidNode (node : String)
  /-- The node cannot be selected beside what is selected already. -/
  | notSelectable (node : String)
  | noSuggestions (expr : String)
  | noChooser
  /-- The list of suggestions has only `count` entries. -/
  | noSuchSuggestion (index count : Nat)
  | noChain
  | nothingToCommit
deriving DecidableEq

namespace Diagnostic.Cause

def message : Cause → String
  | unexpectedEnd => "unexpected end of input"
  | expectedEnd => "expected end of input"
  | unexpectedToken _ _ => "unexpected token"
  | expectedKeyword keyword => "expected the keyword `" ++ keyword ++ "`"
  | unclosedParenthesis => "unclosed parenthesis"
  | emptyParenthesis => "missing expression inside parenthesis"
  | unclosedQuantifierList => "unclosed quantifier list"
  | missingPlaceholder found =>
    "expected the placeholder `__` on the left side, found `" ++ found ++ "`"
  | unusedQuantifier name => "the quantified variable `" ++ name ++ "` is never used"
  | duplicateQuantifier name => "the variable `" ++ name ++ "` is quantified more than once"
  | unknownCommand name _ => "unknown command `" ++ name ++ "`"
  | missingArgument command argument => "`" ++ command ++ "` needs " ++ argument
  | invalidArgument expected => "expected " ++ expected
  | invalidNode node => "there is no node `" ++ node ++ "`"
  | notSelectable node => "node `" ++ node ++ "` cannot be selected now"
  | noSuggestions expr => "no rule applies to `" ++ expr ++ "`"
  | noChooser => "there are no suggestions to choose from"
  | noSuchSuggestion index _ => "there is no suggestion " ++ toString index
  | noChain => "there is no chain yet"
  | nothingToCommit => "nothing to commit"

/-- What to say at each region that the problem points at. -/
def labels : Cause → List String
  | unexpectedEnd => ["you might need to add another expression here"]
  | expectedEnd => ["I could not understand the remaining input here"]
  | unexpectedToken expected _ =>
    ["expected one of: " ++ String.intercalate ", " (expected.map TokenKind.label)]
  | expectedKeyword _ => ["here"]
  | unclosedParenthesis => ["this parenthesis is not closed"]
  | emptyParenthesis => ["add an expression here"]
  | unclosedQuantifierList => ["this bracket is not closed"]
  | missingPlaceholder _ => ["this should be `__`"]
  | unusedQuantifier _ => ["quantified here"]
  | duplicateQuantifier _ => ["first quantified here", "quantified again here"]
  | unknownCommand _ _ => ["this is not a command"]
  | missingArgument _ argument => ["add " ++ argument ++ " after this"]
  | invalidArgument _ => ["here"]
  | invalidNode _ => ["this node"]
  | notSelectable _ => ["this node"]
  | noSuggestions _ => ["this node"]
  | noChooser => ["nothing to choose"]
  | noSuchSuggestion _ count => ["pick a number below " ++ toString count]
  | noChain => ["this needs a chain"]
  | nothingToCommit => ["here"]

def help : Cause → Option String
  | unexpectedToken _ found => some ("found " ++ found.label)
  | unclosedParenthesis => some "add a closing parenthesis `)` somewhere after this"
  | unclosedQuantifierList => some "quantified symbols are written as `[x, y, z]`"
  | missingPlaceholder _ => some "chain parts are written like `__ = expression`"
  | unusedQuantifier _ => some "remove it from the quantifier list"
  | unknownCommand _ (some suggestion) => some ("did you mean `" ++ suggestion ++ "`?")
  | unknownCommand _ none => some "type `help` to list the commands"
  | invalidNode _ => some "`nodes` lists the nodes of a chain"
  | notSelectable _ => some "a second selection must be a sibling of the first, or its parent"
  | noChooser => some "`select` a node first"
  | noChain => some "start one with `begin expression`"
  | nothingToCommit => some "select the root of a step alone, and choose a rewrite for it"
  | _ => none

def note : Cause → Option String
  | notSelectable _ => some "`esc` clears the selection"
  | _ => none

end Diagnostic.Cause

/-- A problem with the regions of the source that it points at. -/
structure Diagnostic where
  cause : Diagnostic.Cause
  spans : List Span
deriving DecidableEq

namespace Diagnostic

def pointingAt (span : Span) (cause : Cause) : Diagnostic := ⟨cause, [span]⟩

/-- The labels of the regions pointed at, as many as there are both labels and regions. -/
def labels (diagnostic : Diagnostic) : List String :=
  diagnostic.cause.labels.take diagnostic.spans.length

/-- How the problem can be mended, shown beside the regions pointed at. -/
def help (diagnostic : Diagnostic) : Option String :=
  if diagnostic.spans.isEmpty then none else diagnostic.cause.help

/-- What else may be worth knowing, shown beside the regions pointed at. -/
def note (diagnostic : Diagnostic) : Option String :=
  if diagnostic.spans.isEmpty then none else diagnostic.cause.note

/-- The diagnostic for a source that stands `offset` bytes into a larger one. -/
def shift (diagnostic : Diagnostic) (offset : Nat) : Diagnostic :=
  { diagnostic with spans := diagnostic.spans.map (·.shift offset) }

/-! ## Reports -/

def labelLine (span : Span) (label : String) : String :=
  "  " ++ toString span.start ++ ".." ++ toString span.stop ++ ": " ++ label

/-- How a diagnostic is reported, line by line: its message first, then what it says about each
region, and last how the problem can be mended. -/
def report (diagnostic : Diagnostic) : List String :=
  ("Error: " ++ diagnostic.cause.message) ::
    ((diagnostic.spans.zip diagnostic.labels).map fun (span, label) => labelLine span label) ++
    (diagnostic.help.map ("  Help: " ++ ·)).toList ++
    (diagnostic.note.map ("  Note: " ++ ·)).toList

end Diagnostic

end Calculation
