import SchemaValidation.CommandLine.Program

/-!
# The executable

Reports are in JSON unless they go to a terminal.
-/

namespace SchemaValidation

namespace CommandLine

/-- Colour is for terminals, unless the environment forces or forbids it. -/
def wantsColor (terminal : Bool) : IO Bool := do
  if let some forced ← IO.getEnv "CLICOLOR_FORCE" then
    if forced ≠ "0" then return true
  if (← IO.getEnv "NO_COLOR").isSome then return false
  return terminal

/-- Run the program here, and write what it has to say. -/
def runHere (arguments : List String) : IO UInt32 := do
  let stdout ← IO.getStdout
  let terminal ← stdout.isTty
  let unknown := "unknown"
  let exit := run {
      build := ⟨unknown, unknown, unknown, unknown, unknown⟩
      color := ← wantsColor terminal
      defaultFormat := if terminal then .pretty else .json } arguments
  (← IO.getStderr).putStr exit.errorOutput
  stdout.putStr exit.output
  return .ofNat exit.code

end CommandLine

end SchemaValidation

def main (arguments : List String) : IO UInt32 := SchemaValidation.CommandLine.runHere arguments
