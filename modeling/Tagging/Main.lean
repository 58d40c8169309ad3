import Tagging.CommandLine

/-!
# The program

Answers what the command line asks of the outside.
-/

namespace Tagging

/-- Why a file or a stream cannot be read. -/
def readFailure : IO.Error → String
  | .noFileOrDirectory _ _ _ => "No such file or directory (os error 2)"
  | .permissionDenied _ _ _ => "Permission denied (os error 13)"
  | .inappropriateType _ _ _ => "Is a directory (os error 21)"
  | error => toString error

/-- The bytes that `read` gives, or why it gives none. -/
def readBytes (read : IO ByteArray) : IO (Except String ByteArray) := do
  try
    return .ok (← read)
  catch error =>
    return .error (readFailure error)

/-- The files, streams and time of this machine. -/
def machine : CommandLine.Host IO where
  file path := readBytes (IO.FS.readBinFile path)
  input := readBytes do (← IO.getStdin).readBinToEnd
  clock := IO.monoNanosNow
  isTerminal := do (← IO.getStdout).isTty

end Tagging

/-- Runs the program with the arguments that it was given. -/
def main (arguments : List String) : IO UInt32 := do
  let response ← Tagging.CommandLine.run Tagging.machine arguments
  (← IO.getStdout).putStr response.output
  (← IO.getStderr).putStr response.errors
  return UInt32.ofNat response.exit
