import SchemaValidation.Value.Basic
import SchemaValidation.Json

/-!
# Values from typed data

`ToValue` converts data into values.  Every integer becomes the nearest double, a tie going to the
even neighbour; a single-precision number is widened exactly.  A missing optional becomes the absent
value.

JSON converts by structure.  It knows no absence and no NaN, and so neither occurs in a value
made from it.
-/

namespace SchemaValidation

/-- Data that can be made into values. -/
class ToValue (α : Type) where
  toValue : α → Value

export ToValue (toValue)

namespace Value

/-- The number nearest to an integer. -/
def ofInt (n : Int) : Value := .number (.ofInt n)

mutual

def ofJson : Json → Value
  | .null => .null
  | .boolean b => .boolean b
  | .number n => .number n.toDouble
  | .string s => .string s
  | .array items => .array (ofJsonItems items)
  | .object members => .object (ofJsonMembers members)
termination_by structural j => j

def ofJsonItems : List Json → List Value
  | [] => []
  | item :: items => ofJson item :: ofJsonItems items
termination_by structural items => items

def ofJsonMembers {floor : Option String} : Bindings Json floor → Bindings Value floor
  | .nil => .nil
  | .cons name follows member rest => .cons name follows (ofJson member) (ofJsonMembers rest)
termination_by structural members => members

end

theorem ofJsonItems_eq_map (items : List Json) : ofJsonItems items = items.map ofJson := by
  induction items with
  | nil => rfl
  | cons item items ih => rw [ofJsonItems, ih, List.map_cons]

theorem ofJsonMembers_eq_map {floor : Option String} (members : Bindings Json floor) :
    ofJsonMembers members = members.map ofJson := by
  induction members with
  | nil => rfl
  | cons name follows member rest ih => rw [ofJsonMembers, ih, Bindings.map_cons]

@[simp] theorem ofJson_array (items : List Json) :
    ofJson (.array items) = .array (items.map ofJson) := by
  rw [ofJson, ofJsonItems_eq_map]

@[simp] theorem ofJson_object (members : NameMap Json) :
    ofJson (.object members) = .object (members.map ofJson) := by
  rw [ofJson, ofJsonMembers_eq_map]

end Value

instance : ToValue Value := ⟨id⟩
instance : ToValue Int8 := ⟨fun n => .ofInt n.toInt⟩
instance : ToValue Int16 := ⟨fun n => .ofInt n.toInt⟩
instance : ToValue Int32 := ⟨fun n => .ofInt n.toInt⟩
instance : ToValue Int64 := ⟨fun n => .ofInt n.toInt⟩
instance : ToValue UInt8 := ⟨fun n => .ofInt n.toNat⟩
instance : ToValue UInt16 := ⟨fun n => .ofInt n.toNat⟩
instance : ToValue UInt32 := ⟨fun n => .ofInt n.toNat⟩
instance : ToValue UInt64 := ⟨fun n => .ofInt n.toNat⟩
instance : ToValue Double := ⟨.number⟩
instance : ToValue Single := ⟨fun x => .number x.toDouble⟩
instance : ToValue Bool := ⟨.boolean⟩
instance : ToValue String := ⟨.string⟩
instance : ToValue Json := ⟨.ofJson⟩

variable {α : Type} [ToValue α]

/-- Nothing becomes the absent value. -/
instance : ToValue (Option α) := ⟨fun x => x.elim .absent toValue⟩

instance : ToValue (List α) := ⟨fun items => .array (items.map toValue)⟩

instance : ToValue (NameMap α) := ⟨fun m => .object (m.map toValue)⟩

end SchemaValidation
