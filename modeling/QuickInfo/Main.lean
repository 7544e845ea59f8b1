import QuickInfo.CommandLine

/-!
# Program

Runs the command line on the files of the system.
-/
namespace QuickInfo

/-- The error number of a failure to read a file. Some of them come negated. -/
def errorNumber? : IO.Error → Option Nat
  | .noFileOrDirectory _ code _ | .permissionDenied _ code _ | .inappropriateType _ code _
  | .invalidArgument _ code _ | .resourceExhausted _ code _ | .noSuchThing _ code _
  | .otherError code _ => some code.toInt32.toInt.natAbs
  | _ => none

def failureText (e : IO.Error) : String :=
  match errorNumber? e with
  | some number => CommandLine.systemReason number
  | none => toString e

def readBytes (path : String) : IO (Except String ByteArray) := do
  try
    return .ok (← IO.FS.readBinFile path)
  catch e =>
    return .error (failureText e)

end QuickInfo

def main (words : List String) : IO UInt32 := do
  let outcome ← QuickInfo.CommandLine.run QuickInfo.readBytes words
  (← IO.getStdout).putStr outcome.stdout
  (← IO.getStderr).putStr outcome.stderr
  return outcome.exit.toUInt32
