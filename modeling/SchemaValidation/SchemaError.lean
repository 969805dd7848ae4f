/-!
# Errors

Why a schema is not registered, or a value not accepted under a name.
-/

namespace SchemaValidation

inductive SchemaError where
  /-- The schema has a node of no declared kind. -/
  | undeclared (path : String)
  /-- The name is taken. -/
  | alreadyRegistered (name : String)
  /-- As many schemas are registered as may be. -/
  | limitExceeded (max : Nat)
  /-- The name is not registered. -/
  | noSchema (name : String)
  /-- The schema of that name does not accept the value. -/
  | rejected (name : String)
deriving DecidableEq, Repr

def SchemaError.message : SchemaError → String
  | .undeclared path => "schema has no declared kind at " ++ path
  | .alreadyRegistered name => "schema already registered: " ++ name
  | .limitExceeded max => "schema count exceeds configured max (" ++ toString max ++ ")"
  | .noSchema name => "no schema registered under " ++ name
  | .rejected name => "value rejected by schema " ++ name

end SchemaValidation
