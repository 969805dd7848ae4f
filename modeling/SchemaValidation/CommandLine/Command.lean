import SchemaValidation.Conformance.Cases
import SchemaValidation.Conformance.Rendering
import SchemaValidation.Log

/-!
# Commands

What the program does once its arguments are understood: run the conformance cases, list them, or
tell its version.  A command leaves an exit code, its output, a log and possibly a complaint.  How
the log is kept has no influence on the rest.
-/

namespace SchemaValidation

namespace CommandLine

inductive Command where
  | conformance (filter : Option String)
  | list (filter : Option String)
  | version (extended : Bool)
deriving DecidableEq, Repr

/-- What is known of how the program was built. -/
structure Build where
  target : String
  profile : String
  os : String
  arch : String
  revision : String

/-- What a command leaves behind. -/
structure Completion where
  code : Nat
  output : String
  log : List Log.Record := []
  /-- Why the command was not carried out. -/
  complaint : Option String := none

namespace Completion

/-- The log and the complaint as they appear on the error stream. -/
def errorOutput (format : Log.Format) (level : Log.Level) (c : Completion) : String :=
  Log.render format level c.log ++ c.complaint.elim "" fun message => "error: " ++ message ++ "\n"

end Completion

def programName : String := "fluentschema"

def programVersion : String := "0.2.1"

def versionLine : String := programName ++ " " ++ programVersion ++ "\n"

/-- Everything went well. -/
def success : Nat := 0

/-- Some case failed. -/
def failure : Nat := 1

/-- The filter matches no case. -/
def nothingToDo : Nat := 64

/-- An optional text as it is shown in the log.  It stands in quotes as it is, and what would have
to be escaped between quotes is not.  The filters that are shown occur in descriptions, which hold
nothing of that kind. -/
def showOptional : Option String → String
  | some s => "Some(\"" ++ s ++ "\")"
  | none => "None"

open Conformance in
/-- Run the cases that the filter selects, and report. -/
def conformance (color : Bool) (format : Format) (cases : List Case) (filter : Option String) :
    Completion :=
  match select filter cases with
  | [] => {
      code := nothingToDo
      output := ""
      complaint := some ("no conformance case matches filter: " ++ filter.getD "") }
  | selected =>
    let run := runAll selected
    let begun : Log.Record :=
      ⟨.info, "running conformance cases",
        [("cases", .count selected.length), ("filter", .shown (showOptional filter))]⟩
    let failed := run.result.failures.map fun o =>
      (⟨.warn, "conformance case failed", [("case", .text o.description)]⟩ : Log.Record)
    { code := if run.result.allPassed then success else failure
      output := run.result.render color format
      log := begun :: run.events.filterMap Event.record? ++ failed }

open Conformance in
/-- List the cases that the filter selects. -/
def list (format : Format) (cases : List Case) (filter : Option String) : Completion :=
  let selected := select filter cases
  { code := success
    output := CaseList.render format selected
    log := [⟨.debug, "listing conformance cases", [("cases", .count selected.length)]⟩] }

/-- The version, or all that is known about the program. -/
def version (build : Build) (extended : Bool) : Completion where
  code := success
  output :=
    if extended then Conformance.unlines [
      "name: " ++ programName,
      "version: " ++ programVersion,
      "build_target: " ++ build.target,
      "build_profile: " ++ build.profile,
      "target_os: " ++ build.os,
      "target_arch: " ++ build.arch,
      "git_hash: " ++ build.revision,
      "conformance_cases: " ++ toString Conformance.cases.length]
    else versionLine

def Command.run (build : Build) (color : Bool) (format : Conformance.Format) :
    Command → Completion
  | .conformance filter => CommandLine.conformance color format Conformance.cases filter
  | .list filter => CommandLine.list format Conformance.cases filter
  | .version extended => CommandLine.version build extended

end CommandLine

end SchemaValidation
