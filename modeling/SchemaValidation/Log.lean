import SchemaValidation.Event
import SchemaValidation.Text.Document

/-!
# Logs

A record of a log has a level, a message and named fields.  It is written as a line of text or as a
JSON document.  A log also tells when each record was made, which is left out here.

Levels are ordered by how much they tell: a log kept at a level holds the records of that level and
of those that tell less.
-/

namespace SchemaValidation

namespace Log

inductive Level where
  | error | warn | info | debug | trace
deriving DecidableEq, Repr

namespace Level

def text : Level → String
  | .error => "ERROR"
  | .warn => "WARN"
  | .info => "INFO"
  | .debug => "DEBUG"
  | .trace => "TRACE"

/-- How much is told at the level. -/
def verbosity : Level → Nat
  | .error => 0
  | .warn => 1
  | .info => 2
  | .debug => 3
  | .trace => 4

end Level

/-- The value of a field. -/
inductive Field where
  /-- A name or a text, written in quotes. -/
  | text (s : String)
  /-- Something already written out. -/
  | shown (s : String)
  | count (n : Nat)
deriving DecidableEq, Repr

namespace Field

/-- The value in a line of text.  A text stands in quotes as it is, and what would have to be
escaped between quotes is not. -/
def line : Field → String
  | .text s => "\"" ++ s ++ "\""
  | .shown s => s
  | .count n => toString n

def document : Field → Document
  | .text s | .shown s => .text s
  | .count n => .count n

end Field

structure Record where
  level : Level
  message : String
  fields : List (String × Field)
deriving DecidableEq, Repr

inductive Format where
  | text | json
deriving DecidableEq, Repr

namespace Record

/-- The record as a line of text, but for the time, which a log puts first.  Levels are set flush
right, five characters wide. -/
def line (r : Record) : String :=
  .ofList (.replicate (5 - r.level.text.length) ' ') ++ r.level.text ++ " " ++ r.message ++
    .join (r.fields.map fun (name, field) => " " ++ name ++ "=" ++ field.line) ++ "\n"

/-- The record as a document, but for the time, which is the first member in a log.  Members are in
order of name here, which is not their order in a log, and so are the fields, the message among
them. -/
def document (r : Record) : Document :=
  let fields := ("message", .text r.message) :: r.fields.map fun (name, field) =>
    (name, field.document)
  .object [("fields", .object (NameMap.ofList fields).toList), ("level", .text r.level.text)]

def render (format : Format) (r : Record) : String :=
  match format with
  | .text => r.line
  | .json => r.document.line

end Record

/-- The records that a log kept at some level holds. -/
def keep (level : Level) (records : List Record) : List Record :=
  records.filter fun r => r.level.verbosity ≤ level.verbosity

/-- The log of some records. -/
def render (format : Format) (level : Level) (records : List Record) : String :=
  .join ((keep level records).map (Record.render format))

end Log

/-- What the log says of an event.  Notes left by predicates are not logged. -/
def Event.record? : Event → Option Log.Record
  | .typeRejected kind found => some
    ⟨.trace, "type check rejected value",
      [("kind", .text kind.text), ("found", .text found.text)]⟩
  | .refinementRejected kind index => some
    ⟨.trace, "refinement rejected value",
      [("kind", .text kind.text), ("refinement", .count index)]⟩
  | .noted .. => none
  | .registered name kind => some
    ⟨.debug, "registered schema", [("name", .shown name), ("kind", .text kind.text)]⟩
  | .replaced name => some ⟨.debug, "replacing registered schema", [("name", .shown name)]⟩
  | .unknownName name => some
    ⟨.trace, "no schema registered, accepting value", [("name", .text name)]⟩

end SchemaValidation
