import SchemaValidation.Schema.Basic
import SchemaValidation.Value.Equality

/-!
# Predicates

Predicates for refinements.  A test of one type is false on every other type.  Connectives and
quantifiers go from left to right and stop at the first decision, which shows in the events.
-/

namespace SchemaValidation

namespace Predicate

/-- A test that reports nothing. -/
def test (t : Value → Bool) : Predicate := fun v => return t v

def number (t : Double → Bool) : Predicate := test fun v => v.number?.any t

def string (t : String → Bool) : Predicate := test fun v => v.string?.any t

def boolean (t : Bool → Bool) : Predicate := test fun v => v.boolean?.any t

/-- A test of the elements of an array. -/
def items (t : List Value → Bool) : Predicate := test fun v => v.items?.any t

/-- A test of the properties of an object. -/
def properties (t : NameMap Value → Bool) : Predicate := test fun v => v.properties?.any t

/-- A number above a bound. -/
def above (bound : Double) : Predicate := number (bound < ·)

/-- A number below a bound. -/
def below (bound : Double) : Predicate := number (· < bound)

/-- An array of so many elements. -/
def count (n : Nat) : Predicate := items (·.length = n)

/-- The property of the value satisfies a predicate; a missing one counts as absent. -/
def property (name : String) (p : Predicate) : Predicate := fun v => p (v.get name)

/-- The element of the value satisfies a predicate; a missing one counts as absent. -/
def item (index : Nat) (p : Predicate) : Predicate := fun v => p (v.item index)

/-- An array of elements that all satisfy a predicate. -/
def everyItem (p : Predicate) : Predicate
  | .array items => items.allM p
  | _ => return false

/-- An array with an element that satisfies a predicate. -/
def someItem (p : Predicate) : Predicate
  | .array items => items.anyM p
  | _ => return false

def negate (p : Predicate) : Predicate := fun v => (!·) <$> p v

/-- All predicates hold. -/
def all (ps : List Predicate) : Predicate := fun v => ps.allM fun p => p v

/-- Some predicate holds. -/
def any (ps : List Predicate) : Predicate := fun v => ps.anyM fun p => p v

/-- Leave a note of the value before looking at it. -/
def noting (label : String) (p : Predicate) : Predicate := fun v => do
  Traced.emit (.noted label v.typeName)
  p v

end Predicate

end SchemaValidation
