import SchemaValidation.NameMap

/-!
# Kinds

A kind says which type of value a schema is for and which schemas judge the parts.  It is
parametric in the children, so that schemas, their outlines and anything else built alike share it.
-/

namespace SchemaValidation

/-- The seven kinds, without their children. -/
inductive KindName where
  | unset | string | number | boolean | object | array | union
deriving DecidableEq, Repr

/-- What a node demands of the type of a value.  An unset kind has not been declared yet. -/
inductive Kind (σ : Type) where
  | unset
  | string
  | number
  | boolean
  | object (properties : Bindings σ none)
  | array (element : σ)
  | union (alternatives : List σ)

namespace KindName

def text : KindName → String
  | .unset => "unset"
  | .string => "string"
  | .number => "number"
  | .boolean => "boolean"
  | .object => "object"
  | .array => "array"
  | .union => "union"

theorem text_injective {k l : KindName} (h : k.text = l.text) : k = l := by
  revert h
  cases k <;> cases l <;> decide

end KindName

namespace Kind

variable {σ : Type}

def name : Kind σ → KindName
  | .unset => .unset
  | .string => .string
  | .number => .number
  | .boolean => .boolean
  | .object _ => .object
  | .array _ => .array
  | .union _ => .union

/-- Arrays and unions decide for themselves about the absent value. -/
def handlesAbsence (k : Kind σ) : Bool := k.name = .array || k.name = .union

/-- Objects, arrays and unions have children. -/
def isComposite (k : Kind σ) : Bool := k.name = .object || k.handlesAbsence

/-- The children, in order: properties by name, alternatives as declared. -/
def children : Kind σ → List σ
  | .object properties => properties.items
  | .array element => [element]
  | .union alternatives => alternatives
  | _ => []

end Kind

end SchemaValidation
