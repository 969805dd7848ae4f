/-!
# Reports

The outcomes of a run of cases, in order, and what can be counted in them.
-/

namespace SchemaValidation

namespace Conformance

structure Outcome where
  description : String
  passed : Bool
deriving DecidableEq, Repr

structure Report where
  outcomes : List Outcome
deriving DecidableEq, Repr

namespace Report

def total (r : Report) : Nat := r.outcomes.length

def passed (r : Report) : Nat := r.outcomes.countP Outcome.passed

def failed (r : Report) : Nat := r.total - r.passed

def allPassed (r : Report) : Bool := r.outcomes.all Outcome.passed

/-- The outcomes that did not pass. -/
def failures (r : Report) : List Outcome := r.outcomes.filter (!·.passed)

theorem passed_le_total (r : Report) : r.passed ≤ r.total := List.countP_le_length

theorem passed_add_failed (r : Report) : r.passed + r.failed = r.total :=
  Nat.add_sub_cancel' r.passed_le_total

end Report

end Conformance

end SchemaValidation
