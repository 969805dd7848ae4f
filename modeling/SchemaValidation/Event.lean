import SchemaValidation.Kind
import SchemaValidation.Value.Basic

/-!
# Events

What an evaluation or a registry reports while it works, besides its answer.
-/

namespace SchemaValidation

inductive Event where
  /-- A node found a value of the wrong type, or with a part that does not fit. -/
  | typeRejected (kind : KindName) (found : TypeName)
  /-- A refinement of a node, counted from zero, did not hold. -/
  | refinementRejected (kind : KindName) (index : Nat)
  /-- A predicate looked at a value and left a note. -/
  | noted (label : String) (found : TypeName)
  /-- A schema was registered under a new name. -/
  | registered (name : String) (kind : KindName)
  /-- A registered schema gave way to another. -/
  | replaced (name : String)
  /-- A value was accepted because no schema is registered under the name. -/
  | unknownName (name : String)
deriving DecidableEq, Repr

end SchemaValidation
