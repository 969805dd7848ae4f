import SchemaValidation.CommandLine.Arguments

/-!
# The program

From arguments to an exit code and what is written to the two output streams.
-/

namespace SchemaValidation

namespace CommandLine

/-- Where the program runs and how it was built. -/
structure Surroundings where
  build : Build
  /-- Whether to write in colour. -/
  color : Bool
  /-- The format of reports where none is asked for. -/
  defaultFormat : Conformance.Format

structure Exit where
  code : Nat
  output : String
  errorOutput : String
deriving DecidableEq, Repr

/-- The exit code of a misused program. -/
def misuse : Nat := 2

def usage : String := Conformance.unlines [
  "Fluent schema validation CLI",
  "",
  "Usage: fluentschema [OPTIONS] <COMMAND>",
  "",
  "Commands:",
  "  conformance  Run the conformance cases [--filter <TEXT>]",
  "  list         List the conformance cases [--filter <TEXT>]",
  "  version      Print the version [--extended]",
  "  help         Print this message",
  "",
  "Options:",
  "      --format <FORMAT>      json, table, pretty or raw",
  "      --log-format <FORMAT>  text or json [default: text]",
  "      --log-level <LEVEL>    error, warn, info, debug or trace [default: info]",
  "  -h, --help                 Print help",
  "  -V, --version              Print version"]

def Invocation.run (surroundings : Surroundings) (i : Invocation) : Exit :=
  let completion := i.command.run surroundings.build surroundings.color
    (i.format.getD surroundings.defaultFormat)
  ⟨completion.code, completion.output, completion.errorOutput i.logFormat i.logLevel⟩

/-- Run the program with some arguments. -/
def run (surroundings : Surroundings) (arguments : List String) : Exit :=
  match Invocation.ofArguments arguments with
  | .ok invocation => invocation.run surroundings
  | .error .help => ⟨success, usage, ""⟩
  | .error .version => ⟨success, versionLine, ""⟩
  | .error .misuse => ⟨misuse, "", usage⟩

end CommandLine

end SchemaValidation
