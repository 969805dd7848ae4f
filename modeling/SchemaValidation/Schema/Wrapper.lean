import SchemaValidation.Schema.Basic

/-!
# Wrappers

A wrapper puts a layer around a schema and the matching layer around a value: an array of one
element, an object of one property, or a union of one alternative, which leaves the value as it is.
-/

namespace SchemaValidation

inductive Wrapper where
  | element (required : Bool)
  | property (name : String)
  | alternative
deriving DecidableEq, Repr

namespace Wrapper

/-- The layer around a schema. -/
def schema : Wrapper → Schema → Schema
  | .element true, s => Schema.blank.arrayOf s
  | .element false, s => Schema.blank.optional.arrayOf s
  | .property name, s => Schema.blank.object [(name, s)]
  | .alternative, s => Schema.blank.oneOf [s]

/-- The layer around a value. -/
def value : Wrapper → Value → Value
  | .element _, v => .array [v]
  | .property name, v => .ofProperties [(name, v)]
  | .alternative, v => v

end Wrapper

end SchemaValidation
