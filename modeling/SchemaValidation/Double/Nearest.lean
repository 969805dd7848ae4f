import SchemaValidation.Double.Basic

/-!
# The nearest double

Rounding an exact ratio of integers to the nearest double, a tie going to the even neighbour.
Integers, decimal fractions and single-precision numbers are such ratios, so this one rule
converts them all; numbers that a double can hold are kept exactly.
-/

namespace SchemaValidation

/-- The integer nearest to a quotient, a tie going to the even neighbour. -/
def divHalfEven (numerator denominator : Nat) : Nat :=
  let quotient := numerator / denominator
  let remainder := numerator % denominator
  if 2 * remainder < denominator ∨ 2 * remainder = denominator ∧ quotient % 2 = 0 then quotient
  else quotient + 1

namespace Double

/-- The magnitude nearest to a quotient.  Counted in units of `2 ^ (-1074)`, the quotient is cut to
fifty-three bits by dropping `scale` bits.  Adding the rounded digits to the shifted scale carries
into the exponent when rounding reaches the next power of two. -/
def nearestMagnitude (numerator denominator : Nat) : Nat :=
  let scaled := numerator * Nat.pow 2 1074
  let scale := (scaled / denominator).log2 - 52
  min infinity (scale * exponentUnit + divHalfEven scaled (denominator * Nat.pow 2 scale))

theorem nearestMagnitude_le (numerator denominator : Nat) :
    nearestMagnitude numerator denominator ≤ infinity := Nat.min_le_left ..

/-- The double nearest to a quotient, with a sign of its own so that zero may have one too. -/
def nearest (negative : Bool) (numerator denominator : Nat) : Double where
  negative := negative
  magnitude := nearestMagnitude numerator denominator
  magnitude_lt := Nat.lt_of_le_of_lt (nearestMagnitude_le ..) (by decide)

/-- The double nearest to an integer. -/
def ofInt (n : Int) : Double := nearest (n < 0) n.natAbs 1

/-- The double nearest to `digits / 10 ^ places`, or to its opposite. -/
def ofDecimal (negative : Bool) (digits places : Nat) : Double :=
  nearest negative digits (Nat.pow 10 places)

/-- A double that came about by rounding is no NaN. -/
theorem isNaN_nearest (negative : Bool) (numerator denominator : Nat) :
    (nearest negative numerator denominator).isNaN = false :=
  decide_eq_false (Nat.not_lt.mpr (nearestMagnitude_le numerator denominator))

@[simp] theorem isNaN_ofInt (n : Int) : (ofInt n).isNaN = false := isNaN_nearest ..

end Double

/-- A single-precision number, by its bits. -/
structure Single where
  bits : UInt32

namespace Single

/-- The double of the same value.  The eight bits of the exponent shift the digits; a NaN stays
one. -/
def toDouble (x : Single) : Double :=
  let negative := 0x80000000 ≤ x.bits.toNat
  let exponent := x.bits.toNat / 0x800000 % 0x100
  let fraction := x.bits.toNat % 0x800000
  if exponent = 0xff then
    ⟨negative, Double.infinity + fraction * 0x20000000, by
      have : fraction < 0x800000 := Nat.mod_lt _ (by decide)
      simp only [Double.infinity, Double.exponentUnit]
      omega⟩
  else if exponent = 0 then .nearest negative fraction (Nat.pow 2 149)
  else .nearest negative ((0x800000 + fraction) * Nat.pow 2 (exponent - 1)) (Nat.pow 2 149)

end Single

end SchemaValidation
