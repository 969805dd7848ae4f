/-!
# Double-precision numbers

A double is held as its sign and the remaining sixty-three bits, its magnitude.  Magnitudes are
ordered as the numbers that they stand for, so equality and order of doubles are equality and
order of integers (`Double.rank`), and a finite double is exactly an integer number of units of
`2 ^ (-1074)` (`Double.units`).
-/

namespace SchemaValidation

/-- A double-precision number: finite, infinite or not a number. -/
@[ext] structure Double where
  negative : Bool
  /-- The bits below the sign bit. -/
  magnitude : Nat
  magnitude_lt : magnitude < 0x8000000000000000

namespace Double

/-- The lowest bit of the exponent: the fifty-two bits below it are the fraction. -/
def exponentUnit : Nat := 0x10000000000000

/-- The magnitude of the infinities.  Lower magnitudes are finite, higher ones no numbers. -/
def infinity : Nat := 2047 * exponentUnit

def ofBits (bits : UInt64) : Double where
  negative := 0x8000000000000000 ≤ bits.toNat
  magnitude := bits.toNat % 0x8000000000000000
  magnitude_lt := Nat.mod_lt _ (by decide)

def toBits (x : Double) : UInt64 :=
  .ofNat (x.negative.toNat * 0x8000000000000000 + x.magnitude)

def isNaN (x : Double) : Bool := infinity < x.magnitude

def isFinite (x : Double) : Bool := x.magnitude < infinity

/-- An integer that places a number among the others.  The two zeros have the same rank. -/
def rank (x : Double) : Int := if x.negative then -x.magnitude else x.magnitude

/-- Numbers are equal if they have the same rank.  A NaN equals nothing, not even itself. -/
instance : BEq Double where
  beq x y := !x.isNaN && !y.isNaN && x.rank == y.rank

/-- Numbers are ordered by rank.  A NaN is neither below nor above anything. -/
instance : LT Double where
  lt x y := x.isNaN = false ∧ y.isNaN = false ∧ x.rank < y.rank

instance : LE Double where
  le x y := x.isNaN = false ∧ y.isNaN = false ∧ x.rank ≤ y.rank

instance (x y : Double) : Decidable (x < y) :=
  inferInstanceAs (Decidable (_ ∧ _ ∧ _))

instance (x y : Double) : Decidable (x ≤ y) :=
  inferInstanceAs (Decidable (_ ∧ _ ∧ _))

theorem isNaN_of_isFinite {x : Double} (h : x.isFinite) : x.isNaN = false :=
  decide_eq_false (Nat.not_lt.mpr (Nat.le_of_lt (of_decide_eq_true h)))

theorem beq_eq_true {x y : Double} :
    (x == y) = true ↔ x.isNaN = false ∧ y.isNaN = false ∧ x.rank = y.rank := by
  change (!x.isNaN && !y.isNaN && x.rank == y.rank) = true ↔ _
  simp [and_assoc]

/-- A double equals itself unless it is a NaN. -/
theorem beq_self (x : Double) : (x == x) = !x.isNaN := by
  rw [Bool.eq_iff_iff, beq_eq_true]
  simp

/-- The number of units of `2 ^ (-1074)` that a finite magnitude stands for.  Each step of the
exponent past the first doubles the worth of the bits below it, to which the first adds a leading
one. -/
def magnitudeUnits (magnitude : Nat) : Nat :=
  let scale := magnitude / exponentUnit - 1
  (magnitude - scale * exponentUnit) * Nat.pow 2 scale

/-- The exact value of a finite double, in units of `2 ^ (-1074)`. -/
def units (x : Double) : Int :=
  if x.negative then -magnitudeUnits x.magnitude else magnitudeUnits x.magnitude

end Double

end SchemaValidation
