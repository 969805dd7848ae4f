import SchemaValidation.Proofs.Reading
import SchemaValidation.Proofs.Verdicts

/-!
# Decoded reports

A report in JSON is one line, whatever the descriptions hold, and nothing is lost in it.  Read as JSON,
it gives back every outcome, in order, and the counts (`Conformance.Report.json_decodes`).
-/

namespace SchemaValidation

open Text

namespace Conformance

namespace Outcome

def document (o : Outcome) : Document :=
  .object [("description", .text o.description), ("passed", .flag o.passed)]

/-- The outcome that a document tells of. -/
def ofDocument? (d : Document) : Option Outcome :=
  match d.member? "description", d.member? "passed" with
  | some (.text description), some (.flag passed) => some ⟨description, passed⟩
  | _, _ => none

theorem ofDocument?_document (o : Outcome) : ofDocument? o.document = some o := rfl

-- a quote, a backslash, a line break and a control character
example : (document ⟨"\"\\\n\x01", false⟩).line =
    "\x7b\"description\":\"\\\"\\\\\\n\\u0001\",\"passed\":false\x7d\n" := by decide +kernel

end Outcome

namespace Report

/-- The report that a document tells of. -/
def ofDocument? (d : Document) : Option Report :=
  match d.member? "cases" with
  | some (.array items) => (items.mapM Outcome.ofDocument?).map Report.mk
  | _ => none

variable (r : Report)

theorem member?_cases :
    r.document.member? "cases" = some (.array (r.outcomes.map Outcome.document)) := rfl

/-- The outcomes are read again, one after the other. -/
theorem ofDocument?_document : ofDocument? r.document = some r := by
  have outcomes : (r.outcomes.map Outcome.document).mapM Outcome.ofDocument? = some r.outcomes := by
    induction r.outcomes with
    | nil => rfl
    | cons o rest ih => rw [List.map_cons, List.mapM_cons, Outcome.ofDocument?_document, ih]; rfl
  rw [ofDocument?, member?_cases]
  exact congrArg (Option.map Report.mk) outcomes

/-- A report in JSON is a single line: it has no line break but the one at its end, and no control
character that is not escaped.  Read as JSON, it gives back the outcomes in order, and the counts.
So no two reports look the same. -/
theorem json_decodes (color : Bool) (r : Report) :
    (∃ line, (r.render color .json).toList = line ++ ['\n'] ∧ '\n' ∉ line ∧ '\r' ∉ line ∧
      ∀ c ∈ line, isControl c = false) ∧
    (∃ d, Document.ofText? (r.render color .json) = some d ∧ ofDocument? d = some r ∧
      d.member? "total" = some (.count r.total) ∧
      d.member? "passed" = some (.count r.passed) ∧
      d.member? "failed" = some (.count r.failed)) ∧
    ∀ (color' : Bool) (r' : Report),
      r.render color .json = r'.render color' .json ↔ r.outcomes = r'.outcomes := by
  refine ⟨r.document.exists_line, ⟨r.document, r.document.ofText?_line, r.ofDocument?_document,
    rfl, rfl, rfl⟩, fun color' r' => ⟨fun same => ?_, fun same => ?_⟩⟩
  · have documents : some r.document = some r'.document := by
      rw [← Document.ofText?_line, ← Document.ofText?_line]
      exact congrArg Document.ofText? same
    have reports : some r = some r' := by
      rw [← ofDocument?_document, ← ofDocument?_document, Option.some.inj documents]
    exact congrArg outcomes (Option.some.inj reports)
  · have reports : r = r' := congrArg Report.mk same
    rw [reports]
    rfl

end Report

end Conformance

end SchemaValidation
