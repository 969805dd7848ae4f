import SchemaValidation.Conformance.Report
import SchemaValidation.Schema.Validate
import SchemaValidation.Text.Search

/-!
# Cases

A case is a description and a list of expectations, each of a schema that accepts or rejects a
value.  It passes if every expectation is met; they are tried in order, up to the first that is
not.
-/

namespace SchemaValidation

namespace Conformance

/-- A schema accepts a value, or does not. -/
structure Expectation where
  schema : Schema
  value : Value
  accepted : Bool

def accepts (schema : Schema) (value : Value) : Expectation := ⟨schema, value, true⟩

def rejects (schema : Schema) (value : Value) : Expectation := ⟨schema, value, false⟩

def Expectation.met (e : Expectation) : Traced Bool :=
  (· == e.accepted) <$> e.schema.validate e.value

structure Case where
  description : String
  expectations : List Expectation

def Case.run (c : Case) : Traced Bool := c.expectations.allM Expectation.met

/-- The cases whose description holds the filter, or all without one. -/
def select (filter : Option String) (cases : List Case) : List Case :=
  match filter with
  | some needle => cases.filter fun c => Text.holdsIgnoringCase c.description needle
  | none => cases

/-- Run cases in order. -/
def runAll (cases : List Case) : Traced Report :=
  Report.mk <$> cases.mapM fun c => Outcome.mk c.description <$> c.run

end Conformance

end SchemaValidation
