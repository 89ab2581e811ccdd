import Calculation.Command.Line
import Calculation.Source.Reading
import Calculation.Text.Input

/-!
Commands: what a user can ask for on one line.

The first word of a line says which command it is, and what follows are the arguments.  A word that
is no command is answered with the one that is spelled most like it, if there is one that differs in
fewer than three letters.  All regions that a diagnostic points at are regions of the whole line.
-/

namespace Calculation

namespace Command

/-- A node as it is typed: its number in the chain, after the number of the chain or without it. -/
structure NodeReference where
  chain : Option Nat
  index : Nat
deriving DecidableEq

namespace NodeReference

def text (reference : NodeReference) : String :=
  match reference.chain with
  | some chain => toString chain ++ "." ++ toString reference.index
  | none => toString reference.index

end NodeReference

/-- What the first word of a line can ask for. -/
inductive Verb where
  | begin | rule | rules | chain | nodes | select | choose | dismiss | escape | commit | help | quit
deriving DecidableEq

namespace Verb

/-- The words that are suggested to a user, with what they ask for. -/
def vocabulary : List (String × Verb) :=
  [("begin", begin), ("rule", rule), ("rules", rules), ("chain", chain), ("nodes", nodes),
    ("select", select), ("choose", choose), ("dismiss", dismiss), ("esc", escape),
    ("commit", commit), ("space", commit), ("help", help), ("quit", quit)]

/-- What the word asks for.  The word `exit` is understood, and never suggested. -/
def ofWord? (word : String) : Option Verb :=
  if word = "exit" then some quit else vocabulary.lookup word

/-- How far a word may be from one that is suggested for it. -/
def suggestionDistance : Nat := 3

/-- The entry with the least number, and of several such entries the first. -/
def nearest? : List (String × Nat) → Option (String × Nat)
  | [] => none
  | entry :: rest =>
    match nearest? rest with
    | some other => if other.2 < entry.2 then some other else some entry
    | none => some entry

/-- The word of the vocabulary that is spelled most like the given one, if it is close. -/
def suggestion? (word : String) : Option String :=
  let distances := vocabulary.map fun (known, _) =>
    (known, Text.editDistance known.toList word.toList)
  (nearest? (distances.filter fun (_, distance) => distance < suggestionDistance)).map Prod.fst

end Verb

end Command

open Command (Line NodeReference Verb)

/-- What a line asks for. -/
inductive Command where
  | begin (beginning : Expr)
  /-- Adds a rule for the chains to come. -/
  | rule (rule : Rule)
  | rules
  | chain (number : Option Nat)
  | nodes (number : Option Nat)
  | select (node : NodeReference)
  | choose (index : Nat)
  /-- Closes the list of suggestions. -/
  | dismiss
  | escape
  /-- Lets the chain grow by what was chosen. -/
  | commit
  | help
  | quit
deriving DecidableEq

namespace Command

/-! ## Arguments -/

/-- The diagnostic for arguments that are not what was expected. -/
def Line.invalid (line : Line) (expected : String) : Diagnostic :=
  .pointingAt line.argumentsSpan (.invalidArgument expected)

def Line.required (line : Line) (needed : String) : Except Diagnostic (List Char) :=
  if line.isBare then .error (.pointingAt line.wordSpan (.missingArgument line.word needed))
  else .ok line.arguments

/-- The value for a line that must have no arguments. -/
def Line.bare {α : Type} (line : Line) (value : α) : Except Diagnostic α :=
  if line.isBare then .ok value else .error (line.invalid "no argument")

def Line.number (line : Line) (expected : String) (text : List Char) : Except Diagnostic Nat :=
  match Text.readNumeral? text with
  | some number => .ok number
  | none => .error (line.invalid expected)

def Line.chainNumber (line : Line) : Except Diagnostic (Option Nat) :=
  if line.isBare then .ok none else (line.number "a chain number" line.arguments).map some

/-- The parts of the text before and after the first period. -/
def splitAtPeriod? : List Char → Option (List Char × List Char)
  | [] => none
  | '.' :: rest => some ([], rest)
  | c :: rest => (splitAtPeriod? rest).map fun (front, back) => (c :: front, back)

def Line.nodeReference (line : Line) : Except Diagnostic NodeReference := do
  let text ← line.required "a node number"
  let number := line.number "a node like `2` or `0.2`"
  match splitAtPeriod? text with
  | some (front, back) => pure ⟨some (← number front), ← number back⟩
  | none => pure ⟨none, ← number text⟩

/-! ## Whole lines -/

/-- Reads what follows the verb of the line.  A rule is declared by the whole line, the verb
included. -/
def read (source : String) (line : Line) : Verb → Except Diagnostic Command
  | .begin => do
    let text ← line.required "an expression"
    match Expr.parse (String.ofList text) with
    | .ok beginning => pure (.begin beginning)
    | .error diagnostic => throw (diagnostic.shift line.argumentsSpan.start)
  | .rule => (Rule.parse source).map .rule
  | .rules => line.bare .rules
  | .chain => line.chainNumber.map .chain
  | .nodes => line.chainNumber.map .nodes
  | .select => line.nodeReference.map .select
  | .choose => do
    let text ← line.required "a suggestion number"
    pure (.choose (← line.number "a suggestion number" text))
  | .dismiss => line.bare .dismiss
  | .escape => line.bare .escape
  | .commit => line.bare .commit
  | .help => .ok .help
  | .quit => .ok .quit

def parse (source : String) : Except Diagnostic Command :=
  let line := Line.ofString source
  match Verb.ofWord? line.word with
  | some verb => read source line verb
  | none =>
    .error (.pointingAt line.wordSpan (.unknownCommand line.word (Verb.suggestion? line.word)))

/-! ## Help -/

def helpLines : List String := [
  "begin EXPR             start a new chain at EXPR",
  "rule NAME [VARS]: REL  add a rule for chains begun after it, e.g.",
  "                       rule cancel [x, y, c]: x * c = y * c <== x = y",
  "rules                  list the rules",
  "chain [K]              show chain K (default: the current chain)",
  "nodes [K]              list the nodes of chain K with their numbers",
  "select [K.]N           select node N and list the rewrites for it",
  "choose I               annotate the selected node with rewrite I",
  "dismiss                close the list of rewrites",
  "esc                    close the list of rewrites, or undo the last selection",
  "commit, space          append the rewrite of the selected step to its chain",
  "help                   show this message",
  "quit                   leave"]

end Command

end Calculation
