import SchemaValidation.Value.Basic

/-!
# Equality of values

Values are compared by structure, and their numbers as numbers: zero equals negative zero, and a
NaN differs from itself, so a value that holds a NaN anywhere differs from itself too.

`Value.array_beq` and `Value.object_beq` say how composite values are compared.
-/

namespace SchemaValidation

namespace Value

mutual

def equals : Value → Value → Bool
  | .absent, .absent => true
  | .null, .null => true
  | .boolean a, .boolean b => a == b
  | .number x, .number y => x == y
  | .string s, .string t => s == t
  | .array xs, .array ys => equalItems xs ys
  | .object p, .object q => equalProperties p q
  | _, _ => false
termination_by structural v => v

/-- The same number of items, equal one by one. -/
def equalItems : List Value → List Value → Bool
  | [], [] => true
  | x :: xs, y :: ys => x.equals y && equalItems xs ys
  | _, _ => false
termination_by structural xs => xs

/-- The same names, with equal properties. -/
def equalProperties {floor floor' : Option String} :
    Bindings Value floor → Bindings Value floor' → Bool
  | .nil, .nil => true
  | .cons name _ x rest, .cons name' _ y rest' =>
    name == name' && (x.equals y && equalProperties rest rest')
  | _, _ => false
termination_by structural p => p

end

instance : BEq Value := ⟨equals⟩

theorem beq_def (v w : Value) : (v == w) = v.equals w := rfl

theorem equalItems_eq (xs ys : List Value) : equalItems xs ys = (xs == ys) := by
  induction xs generalizing ys with
  | nil => cases ys <;> rfl
  | cons x xs ih => cases ys with
    | nil => rfl
    | cons y ys => rw [equalItems, ih]; rfl

/-- Arrays are equal if they are equal item by item. -/
theorem array_beq (xs ys : List Value) : (array xs == array ys) = (xs == ys) := by
  rw [beq_def, equals, equalItems_eq]

theorem equalProperties_eq {floor floor' : Option String} (p : Bindings Value floor)
    (q : Bindings Value floor') : equalProperties p q = (p.toList == q.toList) := by
  induction p generalizing floor' with
  | nil => cases q <;> rfl
  | cons name follows x rest ih => cases q with
    | nil => rfl
    | cons name' follows' y rest' =>
      rw [equalProperties, ih, Bindings.toList_cons, Bindings.toList_cons, List.cons_beq_cons,
        ← Bool.and_assoc]
      rfl

/-- Objects are equal if they bind the same names to equal values. -/
theorem object_beq (p q : NameMap Value) : (object p == object q) = (p.toList == q.toList) := by
  rw [beq_def, equals, equalProperties_eq]

end Value

end SchemaValidation
