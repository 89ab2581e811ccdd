import Calculation.Text.Input
import Calculation.Theory.Standard

/-!
Options: how a run of the program is set up, by its arguments and by its environment.

Nothing a user sets is an error.  What is not understood is kept, in the order in which it was read,
and the run goes on without it.
-/

namespace Calculation

/-- How much the program tells about its work, the least first. -/
inductive LogLevel where
  | error | warn | info | debug | trace
deriving DecidableEq

namespace LogLevel

/-- All levels.  The first of them is number 1. -/
def all : List LogLevel := [error, warn, info, debug, trace]

def name : LogLevel → String
  | error => "ERROR"
  | warn => "WARN"
  | info => "INFO"
  | debug => "DEBUG"
  | trace => "TRACE"

def ofNumber? : Nat → Option LogLevel
  | 0 => none
  | number + 1 => all[number]?

/-- The level whose name the text is, in capital or in small letters of ASCII. -/
def ofName? (text : List Char) : Option LogLevel :=
  all.find? fun level => level.name.toList = text.map Char.toUpper

/-- Reads a level, which is given by its number or by its name. -/
def ofString? (text : String) : Option LogLevel :=
  (Text.readNumeral? text.toList).bind ofNumber? <|> ofName? text.toList

end LogLevel

/-- How a run is set up. -/
structure Options where
  /-- The file that holds the script.  Without it the standard input is the script. -/
  script : Option String := none
  /-- Whether chains start with the standard rules. -/
  standardRules : Bool := true
  logLevel : LogLevel := .warn
  /-- What was not understood. -/
  ignored : List String := []
deriving DecidableEq

namespace Options

def logVariable : String := "PTT_LOG"

/-- Whether the argument is a flag: two dashes are its beginning. -/
def isFlag (argument : String) : Bool :=
  match argument.toList with
  | '-' :: '-' :: _ => true
  | _ => false

/-- Keeps what was not understood. -/
def ignore (options : Options) (setting : String) : Options :=
  { options with ignored := options.ignored ++ [setting] }

/-- Reads one more argument.  The first that is no flag names the script. -/
def withArgument (options : Options) (argument : String) : Options :=
  if argument = "--no-prelude" then { options with standardRules := false }
  else if isFlag argument || options.script.isSome then options.ignore argument
  else { options with script := some argument }

/-- Reads the level of the log, if the environment sets it. -/
def withLog (options : Options) (setting : Option String) : Options :=
  match setting with
  | none => options
  | some text =>
    match LogLevel.ofString? text with
    | some logLevel => { options with logLevel }
    | none => options.ignore (logVariable ++ "=" ++ text)

def parse (arguments : List String) (log : Option String) : Options :=
  (arguments.foldl withArgument {}).withLog log

def theory (options : Options) : Theory := if options.standardRules then .standard else {}

end Options

end Calculation
