import StrategyCompiler.CommandLine
import Std.Time
/-!
The program: the command line on the files and clocks of the machine.
-/

set_option autoImplicit false

namespace StrategyCompiler.CommandLine

def reason : IO.Error → String
  | .noFileOrDirectory _ _ _ => "No such file or directory (os error 2)"
  | .permissionDenied _ _ _ => "Permission denied (os error 13)"
  | .inappropriateType _ _ _ => "Is a directory (os error 21)"
  | error => toString error

def now : IO String := do
  let instant := Std.Time.DateTime.ofTimestamp (← Std.Time.Timestamp.now) .UTC
  return instant.format "uuuu-MM-dd'T'HH:mm:ss.SSSSSSSSS'Z'"

/-- The machine as a host of runs, with the time at which the run began. -/
def machine (start : Nat) : Host IO where
  read path := do
    match ← (IO.FS.readFile path).toBaseIO with
    | .ok text => return .ok text
    | .error error => return .error (reason error)
  write path text := do
    match ← (IO.FS.writeFile path text).toBaseIO with
    | .ok _ => return .ok ()
    | .error error => return .error (reason error)
  generatedAt := now
  elapsed := return spanText ((← IO.monoNanosNow) - start)

end StrategyCompiler.CommandLine

def main (arguments : List String) : IO UInt32 := do
  let start ← IO.monoNanosNow
  let transcript ← (StrategyCompiler.CommandLine.machine start).run arguments
  (← IO.getStdout).putStr transcript.out
  (← IO.getStderr).putStr transcript.err
  return transcript.exit.toUInt32
