import SchemaValidation.NameMap
import SchemaValidation.Double.Nearest

/-!
# JSON trees

Parsed JSON, in which an object binds each name once.  A number is an integer of sixty-four bits or
a finite double.
-/

namespace SchemaValidation

/-- A JSON number. -/
inductive JsonNumber where
  /-- An integer of sixty-four bits, signed or unsigned. -/
  | integer (n : Int) (range : -0x8000000000000000 ≤ n ∧ n < 0x10000000000000000)
  | double (x : Double) (finite : x.isFinite)

namespace JsonNumber

/-- The double nearest to the number. -/
def toDouble : JsonNumber → Double
  | .integer n _ => .ofInt n
  | .double x _ => x

/-- The number `digits / 10 ^ places`, or its opposite: an integer if it is written as one and
fits, otherwise the nearest double, if that is finite.  A negative zero is a double. -/
def ofDecimal? (negative : Bool) (digits places : Nat) : Option JsonNumber :=
  let n : Int := if negative then -digits else digits
  if range : (places = 0 ∧ ¬(negative ∧ digits = 0)) ∧
      -0x8000000000000000 ≤ n ∧ n < 0x10000000000000000 then
    some (.integer n range.2)
  else if finite : (Double.ofDecimal negative digits places).isFinite then some (.double _ finite)
  else none

theorem isNaN_toDouble : (n : JsonNumber) → n.toDouble.isNaN = false
  | .integer n _ => Double.isNaN_ofInt n
  | .double _ finite => Double.isNaN_of_isFinite finite

end JsonNumber

inductive Json where
  | null
  | boolean (b : Bool)
  | number (n : JsonNumber)
  | string (s : String)
  | array (items : List Json)
  | object (members : Bindings Json none)

/-- Every tree is built from the trees in it. -/
theorem Json.induction {P : Json → Prop} (null : P .null) (boolean : ∀ b, P (.boolean b))
    (number : ∀ n, P (.number n)) (string : ∀ s, P (.string s))
    (array : ∀ items, (∀ j ∈ items, P j) → P (.array items))
    (object : ∀ members : NameMap Json, (∀ j ∈ members.items, P j) → P (.object members))
    (j : Json) : P j := by
  refine @Json.rec P (fun items => ∀ j ∈ items, P j) (fun _ members => ∀ j ∈ members.items, P j)
    null boolean number string array object ?_ ?_ ?_ ?_ j
  all_goals simp_all [Bindings.items]

end SchemaValidation
