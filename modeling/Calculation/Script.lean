import Calculation.Console.Execution
import Calculation.Options
import Calculation.Script.Files
import Calculation.Text.Input

/-!
Scripts: command lines that are run one after the other.

A script is the text of a file or all of the standard input.  Blank lines and lines that begin with
`#` are comments.  Every other line is shown before it is executed, and a line that is refused does
not end the script.
-/

namespace Calculation

namespace Script

/-- One thing that a run has to say. -/
inductive Entry where
  | line (text : String)
  | problem (diagnostic : Diagnostic)
  /-- The script, known by the name, cannot be read. -/
  | unreadable (name : String) (reason : Unreadable)
  /-- The run was broken off by what must not happen. -/
  | broken (fault : Fault)
deriving DecidableEq

namespace Entry

def output : Entry → List String
  | line text => [text]
  | _ => []

def errors : Entry → List String
  | line _ => []
  | problem diagnostic => diagnostic.report
  | unreadable name reason => ["could not read " ++ name ++ ": " ++ reason.message]
  | broken (.foreignNode node chain) =>
    ["node " ++ toString node.index ++ " of chain " ++ toString node.chain ++
      " is not a node of chain " ++ toString chain]
  | broken (.otherChainActive node active) =>
    ["node " ++ toString node.index ++ " of chain " ++ toString node.chain ++
      " was chosen while chain " ++ toString active ++ " is worked on"]

/-- The exit code that a run with the entry in it ends with, unless it is zero. -/
def code : Entry → Nat
  | line _ => 0
  | problem _ => 0
  | unreadable _ _ => 1
  | broken _ => 101

end Entry

/-- Whether the line, its blanks removed, is not to be executed. -/
def isComment : List Char → Bool
  | [] => true
  | c :: _ => c == '#'

/-- Runs the lines of a script until one of them asks to leave. -/
def runLines (console : Console) : List String → List Entry
  | [] => []
  | source :: rest =>
    let trimmed := Text.trim source.toList
    if isComment trimmed then runLines console rest
    else
      .line ("> " ++ String.ofList trimmed) ::
        match console.execute source with
        | .error fault => [.broken fault]
        | .ok answer =>
          let said :=
            match answer.outcome with
            | .ok lines => lines.map Entry.line
            | .error diagnostic => [.problem diagnostic]
          said ++ if answer.console.finished then [] else runLines answer.console rest

def displayName (options : Options) : String := options.script.getD "stdin"

/-- Runs the script with the contents that were read, if they could be. -/
def run (options : Options) (contents : Except Unreadable String) : List Entry :=
  match contents with
  | .error reason => [.unreadable (displayName options) reason]
  | .ok text => runLines (.start options.theory) (Text.lines text)

def decode (bytes : ByteArray) : Except Unreadable String :=
  match String.fromUTF8? bytes with
  | some text => .ok text
  | none => .error .notText

/-- The text of the script that the options ask for: a file if they name one, and else all of the
standard input. -/
def contents (options : Options) (files : Files) (input : ByteArray) : Except Unreadable String :=
  match options.script with
  | none => decode input
  | some path =>
    match files.read path with
    | .error reason => .error reason
    | .ok bytes => decode bytes

def exitCode (entries : List Entry) : Nat := (entries.map Entry.code).foldl max 0

end Script

end Calculation
