import SchemaValidation.CommandLine.Command

/-!
# Arguments

How the arguments of the program are read.  Options that concern the program as a whole may stand
before or after the command; given in both places, the one after the command counts.  The value of
an option is attached with `=` or is the next argument.  Nothing may be given twice in one place.

Reading ends early if help or the version is asked for.  Help asked for after a command is given
even when the value of an option that ended just before the command is no good, for that option is
settled only after the command has been read.
-/

namespace SchemaValidation

namespace CommandLine

/-- An argument by its form. -/
inductive Argument where
  | word (s : String)
  /-- A name after two dashes, perhaps with a value attached. -/
  | long (name : String) (value : Option String)
  /-- Letters after one dash, of which the first counts. -/
  | short (letter : Char)
  /-- Two dashes alone: only words follow. -/
  | separator

namespace Argument

/-- What stands before the first equals sign, and what after it. -/
def splitValue : List Char → List Char × Option (List Char)
  | [] => ([], none)
  | '=' :: rest => ([], some rest)
  | c :: rest => let (name, value) := splitValue rest; (c :: name, value)

def ofString (s : String) : Argument :=
  match s.toList with
  | ['-', '-'] => .separator
  | '-' :: '-' :: rest =>
    let (name, value) := splitValue rest
    .long (.ofList name) (value.map String.ofList)
  | '-' :: letter :: _ => .short letter
  | _ => .word s

end Argument

/-- Where an argument stands: before the command or after it. -/
inductive Place where
  | program | conformance | list | version
deriving DecidableEq, Repr

/-- Options that have a value. -/
inductive Setting where
  | format | logFormat | logLevel | filter
deriving DecidableEq, Repr

/-- Options that have none. -/
inductive Flag where
  | help | version | extended
deriving DecidableEq, Repr

namespace Place

def setting? : Place → String → Option Setting
  | _, "format" => some .format
  | _, "log-format" => some .logFormat
  | _, "log-level" => some .logLevel
  | .conformance, "filter" | .list, "filter" => some .filter
  | _, _ => none

def flag? : Place → String → Option Flag
  | _, "help" => some .help
  | .program, "version" => some .version
  | .version, "extended" => some .extended
  | _, _ => none

def letter? : Place → Char → Option Flag
  | _, 'h' => some .help
  | .program, 'V' => some .version
  | _, _ => none

/-- The place that a command opens. -/
def ofCommand? : String → Option Place
  | "conformance" => some .conformance
  | "list" => some .list
  | "version" => some .version
  | _ => none

end Place

def readFormat? : String → Option Conformance.Format
  | "json" => some .json
  | "table" => some .table
  | "pretty" => some .pretty
  | "raw" => some .raw
  | _ => none

def readLogFormat? : String → Option Log.Format
  | "text" => some .text
  | "json" => some .json
  | _ => none

def readLogLevel? : String → Option Log.Level
  | "error" => some .error
  | "warn" => some .warn
  | "info" => some .info
  | "debug" => some .debug
  | "trace" => some .trace
  | _ => none

/-- What has been given in one place. -/
structure Given where
  format : Option Conformance.Format := none
  logFormat : Option Log.Format := none
  logLevel : Option Log.Level := none
  filter : Option String := none
  extended : Bool := false

/-- Why reading ended before there was a command to run. -/
inductive Interruption where
  /-- The arguments are no good. -/
  | misuse
  /-- Help was asked for. -/
  | help
  /-- The version was asked for. -/
  | version
deriving DecidableEq, Repr

/-- A setting whose value is not settled yet, and the value if it has been read. -/
abbrev Pending : Type := Option (Setting × Option String)

namespace Given

/-- Take a value that has been read, unless there is one already. -/
def take {α : Type} (old : Option α) (value : Option α) : Except Interruption (Option α) :=
  match old, value with
  | none, some a => .ok (some a)
  | _, _ => .error .misuse

def set (g : Given) (setting : Setting) (value : String) : Except Interruption Given :=
  match setting with
  | .format => return { g with format := ← take g.format (readFormat? value) }
  | .logFormat => return { g with logFormat := ← take g.logFormat (readLogFormat? value) }
  | .logLevel => return { g with logLevel := ← take g.logLevel (readLogLevel? value) }
  | .filter => return { g with filter := ← take g.filter (some value) }

/-- Settle a pending setting, which must have its value by now. -/
def settle (g : Given) : Pending → Except Interruption Given
  | none => .ok g
  | some (setting, some value) => g.set setting value
  | some (_, none) => .error .misuse

def raise (g : Given) : Flag → Except Interruption Given
  | .help => .error .help
  | .version => .error .version
  | .extended => if g.extended then .error .misuse else .ok { g with extended := true }

/-- Read one argument.  There is no result for a word that no setting waits for. -/
def read (place : Place) (g : Given) (pending : Pending) :
    Argument → Except Interruption (Option (Given × Pending))
  | .word s =>
    match pending with
    | some (setting, none) => .ok (some (g, some (setting, some s)))
    | _ => .ok none
  | .long name value =>
    match place.setting? name, place.flag? name, value with
    | some setting, _, some value => do
      let g ← g.settle pending
      return some (← g.set setting value, none)
    | some setting, _, none => do
      let g ← g.settle pending
      return some (g, some (setting, none))
    | none, some flag, none => do
      let g ← g.settle pending
      return some (← g.raise flag, none)
    | none, _, _ => .error .misuse
  | .short letter =>
    match place.letter? letter with
    | some flag => do
      let g ← g.settle pending
      return some (← g.raise flag, none)
    | none => .error .misuse
  | .separator => .error .misuse

/-- Read the arguments after a command.  Two dashes may stand at their end. -/
def readAll (place : Place) (g : Given) (pending : Pending) :
    List String → Except Interruption Given
  | [] | ["--"] => g.settle pending
  | arg :: rest => do
    match ← g.read place pending (.ofString arg) with
    | some (g, pending) => g.readAll place pending rest
    | none => .error .misuse

end Given

/-- A command together with how to report and to log. -/
structure Invocation where
  command : Command
  format : Option Conformance.Format
  logFormat : Log.Format
  logLevel : Log.Level

namespace Invocation

/-- The invocation by what was given before and after the command. -/
def ofGiven (command : Command) (before after : Given) : Invocation where
  command := command
  format := after.format <|> before.format
  logFormat := (after.logFormat <|> before.logFormat).getD .text
  logLevel := (after.logLevel <|> before.logLevel).getD .info

def commandOf (place : Place) (after : Given) : Except Interruption Command :=
  match place with
  | .conformance => .ok (.conformance after.filter)
  | .list => .ok (.list after.filter)
  | .version => .ok (.version after.extended)
  | .program => .error .misuse

/-- Help may be asked for about one command, or about help itself. -/
def readHelp : List String → Interruption
  | [] => .help
  | [topic] => if (Place.ofCommand? topic).isSome || topic = "help" then .help else .misuse
  | _ => .misuse

def readFrom (before : Given) (pending : Pending) : List String → Except Interruption Invocation
  | [] => .error .misuse
  | arg :: rest => do
    match ← before.read .program pending (.ofString arg) with
    | some (before, pending) => readFrom before pending rest
    | none =>
      if arg = "help" then throw (readHelp rest)
      else match Place.ofCommand? arg with
        | some place =>
          let after ← Given.readAll place {} none rest
          let before ← before.settle pending
          return ofGiven (← commandOf place after) before after
        | none => .error .misuse

/-- The invocation that arguments ask for. -/
def ofArguments (arguments : List String) : Except Interruption Invocation :=
  readFrom {} none arguments

end Invocation

end CommandLine

end SchemaValidation
