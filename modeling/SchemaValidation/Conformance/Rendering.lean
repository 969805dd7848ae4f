import SchemaValidation.Conformance.Case
import SchemaValidation.Text.Document
import SchemaValidation.Text.Table

/-!
# Rendering of reports

A report, or a list of cases, as a JSON document on one line, as a table, as text for a reader, or
raw: the bare descriptions, of a report only those of the cases that failed.

Colour is for readers.  The text for readers has it where it is wanted.  A table is drawn here as it
is where the output is not a terminal, without colour and as wide as its texts.  On a terminal, the
results of its cases would be coloured too, and it would be fitted to the width of the terminal.
-/

namespace SchemaValidation

namespace Conformance

inductive Format where
  | json | table | pretty | raw
deriving DecidableEq, Repr

/-- Lines, each ended by a line break. -/
def unlines (lines : List String) : String := .join (lines.map (· ++ "\n"))

/-- A text in some display style, if colour is wanted. -/
def paint (color : Bool) (style text : String) : String :=
  if color then "\x1b[" ++ style ++ "m" ++ text ++ "\x1b[0m" else text

def bold : String := "1"

def boldGreen : String := "1;32"

def boldRed : String := "1;31"

namespace Report

def schemaId : String :=
  "https://schemas.3leaps.dev/fluentschema/cli/v1/conformance-report.schema.json"

def document (r : Report) : Document := .object [
  ("schema_id", .text schemaId),
  ("total", .count r.total),
  ("passed", .count r.passed),
  ("failed", .count r.failed),
  ("cases", .array <| r.outcomes.map fun o =>
    .object [("description", .text o.description), ("passed", .flag o.passed)]),
  ("overall", .text (if r.allPassed then "pass" else "fail"))]

def table (r : Report) : Text.Table where
  header := ["RESULT", "CASE"]
  rows := r.outcomes.map fun o => [if o.passed then "PASS" else "FAIL", o.description]

/-- The counts in one line. -/
def counts (r : Report) : String :=
  toString r.passed ++ " passed, " ++ toString r.failed ++ " failed, " ++ toString r.total ++
    " total"

def verdict (r : Report) : String :=
  if r.allPassed then "ALL CASES PASSED!"
  else toString r.failed ++ " OF " ++ toString r.total ++ " CASES FAILED!"

/-- The lines for a reader: a heading, a marked line for every case, and the verdict. -/
def prettyLines (color : Bool) (r : Report) : List String :=
  paint color bold "[i] Running conformance cases..." ::
    r.outcomes.map (fun o =>
      (if o.passed then paint color boldGreen "[+]" else paint color boldRed "[-]") ++ " " ++
        o.description) ++
    ["", paint color (if r.allPassed then boldGreen else boldRed) r.verdict]

/-- The report in some format.  Only the text for readers depends on `color`: the table is that of
an output that is not a terminal. -/
def render (color : Bool) (format : Format) (r : Report) : String :=
  match format with
  | .json => r.document.line
  | .table => unlines (r.table.draw ++ [r.counts])
  | .pretty => unlines (r.prettyLines color)
  | .raw => unlines (r.failures.map Outcome.description)

end Report

namespace CaseList

def schemaId : String := "https://schemas.3leaps.dev/fluentschema/cli/v1/case-list.schema.json"

def document (cases : List Case) : Document := .object [
  ("schema_id", .text schemaId),
  ("cases", .array (cases.map fun c => .text c.description))]

/-- The cases, numbered from one. -/
def table (cases : List Case) : Text.Table where
  header := ["#", "CASE"]
  rows := (cases.zipIdx 1).map fun (c, number) => [toString number, c.description]

def render (format : Format) (cases : List Case) : String :=
  match format with
  | .json => (document cases).line
  | .table => unlines (table cases).draw
  | .pretty | .raw => unlines (cases.map Case.description)

end CaseList

end Conformance

end SchemaValidation
