import Calculation.Script

/-!
The program: reads its options and its script, runs it, and prints what it has to say.
-/

namespace Calculation.Main

partial def readAll (stream : IO.FS.Stream) (read : ByteArray) : IO ByteArray := do
  let chunk ← stream.read 65536
  if chunk.isEmpty then pure read else readAll stream (read ++ chunk)

/-- Why a file could not be read.  The code of an error that arises on opening has its sign
changed. -/
def unreadable : IO.Error → Script.Unreadable
  | .noFileOrDirectory _ _ _ => .missing
  | .inappropriateType _ 21 _ => .isDirectory
  | .inappropriateType _ _ _ => .notDirectory
  | .permissionDenied _ _ _ => .permission
  | error@(.invalidArgument _ code _) =>
    if code = 36 || code = -36 then .nameTooLong else .other (toString error)
  | error => .other (toString error)

def contents (options : Options) : IO (Except Script.Unreadable String) := do
  match options.script with
  | none => return Script.decode (← readAll (← IO.getStdin) .empty)
  | some path =>
    try
      return Script.decode (← IO.FS.readBinFile path)
    catch error => return .error (unreadable error)

/-- Prints what a run has to say, and gives its exit code. -/
def print (entries : List Script.Entry) : IO UInt32 := do
  for entry in entries do
    for line in entry.output do
      IO.println line
    for line in entry.errors do
      IO.eprintln line
  return UInt32.ofNat (Script.exitCode entries)

end Calculation.Main

def main (arguments : List String) : IO UInt32 := do
  let log ← IO.getEnv Calculation.Options.logVariable
  let options := Calculation.Options.parse arguments log
  Calculation.Main.print (Calculation.Script.run options (← Calculation.Main.contents options))
