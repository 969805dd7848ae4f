import SchemaValidation.NameMap
import SchemaValidation.Double.Basic

/-!
# Dynamic values

A value is absent, null, a boolean, a number, a string, an array or an object.  Absence is a value
of its own: it is what a lookup finds where there is nothing, and it differs from null.  Arrays and
objects may hold it, so an object can carry a name and still have nothing there.

Lookups are total.  A step from a value of the wrong type, or to a place that it does not have,
leads to `Value.absent`.
-/

namespace SchemaValidation

inductive Value where
  | absent
  | null
  | boolean (b : Bool)
  | number (x : Double)
  | string (s : String)
  | array (items : List Value)
  | object (properties : Bindings Value none)

instance : Inhabited Value := ⟨.absent⟩

/-- The seven types of values. -/
inductive TypeName where
  | absent | null | boolean | number | string | array | object
deriving DecidableEq, Repr

namespace TypeName

def text : TypeName → String
  | .absent => "absent"
  | .null => "null"
  | .boolean => "boolean"
  | .number => "number"
  | .string => "string"
  | .array => "array"
  | .object => "object"

def all : List TypeName := [.absent, .null, .boolean, .number, .string, .array, .object]

theorem mem_all (t : TypeName) : t ∈ all := by cases t <;> decide

theorem text_injective {s t : TypeName} (h : s.text = t.text) : s = t := by
  revert h
  cases s <;> cases t <;> decide

end TypeName

namespace Value

def typeName : Value → TypeName
  | .absent => .absent
  | .null => .null
  | .boolean _ => .boolean
  | .number _ => .number
  | .string _ => .string
  | .array _ => .array
  | .object _ => .object

def isAbsent (v : Value) : Bool := v.typeName = .absent

def boolean? : Value → Option Bool
  | .boolean b => some b
  | _ => none

def number? : Value → Option Double
  | .number x => some x
  | _ => none

def string? : Value → Option String
  | .string s => some s
  | _ => none

/-- The elements of an array. -/
def items? : Value → Option (List Value)
  | .array items => some items
  | _ => none

def properties? : Value → Option (NameMap Value)
  | .object properties => some properties
  | _ => none

/-- The property of an object, absent if there is none. -/
def get (v : Value) (name : String) : Value :=
  match v with
  | .object properties => (properties.get? name).getD .absent
  | _ => .absent

/-- The element of an array, absent if there is none. -/
def item (v : Value) (index : Nat) : Value :=
  match v with
  | .array items => items.getD index .absent
  | _ => .absent

/-- An object carries a name even when the property is absent. -/
def carries (v : Value) (name : String) : Bool :=
  match v with
  | .object properties => properties.contains name
  | _ => false

/-- The object with some properties.  Where a name occurs twice, the later property counts. -/
def ofProperties (properties : List (String × Value)) : Value :=
  .object (NameMap.ofList properties)

theorem isAbsent_iff {v : Value} : v.isAbsent = true ↔ v = .absent := by
  cases v <;> simp [isAbsent, typeName]

@[simp] theorem isAbsent_absent : isAbsent .absent = true := rfl

/-- Every value is built from the values in it. -/
theorem induction {P : Value → Prop} (absent : P .absent) (null : P .null)
    (boolean : ∀ b, P (.boolean b)) (number : ∀ x, P (.number x)) (string : ∀ s, P (.string s))
    (array : ∀ items, (∀ v ∈ items, P v) → P (.array items))
    (object : ∀ properties : NameMap Value, (∀ v ∈ properties.items, P v) → P (.object properties))
    (v : Value) : P v := by
  refine @Value.rec P (fun items => ∀ v ∈ items, P v) (fun _ properties => ∀ v ∈ properties.items, P v)
    absent null boolean number string array object ?_ ?_ ?_ ?_ v
  all_goals simp_all [Bindings.items]

@[simp] theorem get_object (properties : NameMap Value) (name : String) :
    (object properties).get name = (properties.get? name).getD .absent := rfl

@[simp] theorem item_array (items : List Value) (index : Nat) :
    (array items).item index = items.getD index .absent := rfl

end Value

end SchemaValidation
