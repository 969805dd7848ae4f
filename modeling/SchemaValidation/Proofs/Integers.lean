import SchemaValidation.Proofs.Rounding
import SchemaValidation.Proofs.Depth
import SchemaValidation.Value.Conversion

/-!
# Values of integers

An integer of any of the ten types becomes the number nearest to it, a tie going to the even one
(`Integer.value_rounded`).  Cut to fifty-three bits it is a mantissa, an exponent and a remainder,
and the remainder decides whether the mantissa is raised.  So an integer of at most fifty-three bits
is kept, and larger ones become equal values if they are cut and raised to the same digits.

The range of the types matters for one thing only: that there is a finite double to round to.
-/

namespace SchemaValidation

namespace Double

/-! ## Mantissa, exponent and remainder -/

/-- A natural number is cut to fifty-three bits. -/
structure Cut (n mantissa exponent remainder : Nat) : Prop where
  eq : n = mantissa * 2 ^ exponent + remainder
  remainder_lt : remainder < 2 ^ exponent
  mantissa_lt : mantissa < 2 ^ 53
  normal : exponent = 0 ∨ 2 ^ 52 ≤ mantissa

/-- A mantissa is raised for a remainder of more than half, and for half if it is odd. -/
def raise (mantissa exponent remainder : Nat) : Nat :=
  if 2 * remainder < 2 ^ exponent ∨ 2 * remainder = 2 ^ exponent ∧ mantissa % 2 = 0 then mantissa
  else mantissa + 1

variable {n mantissa exponent remainder : Nat}

theorem exists_cut (n : Nat) :
    ∃ mantissa exponent remainder, Cut n mantissa exponent remainder := by
  have pos : 0 < 2 ^ excess n := Nat.two_pow_pos _
  refine ⟨n / 2 ^ excess n, excess n, n % 2 ^ excess n, (Nat.div_add_mod' ..).symm,
    Nat.mod_lt _ pos, ?_, ?_⟩
  · exact (Nat.div_lt_iff_lt_mul pos).mpr (lt_of_excess n)
  · exact (le_of_excess n).imp_right (Nat.le_div_iff_mul_le pos).mpr

theorem raise_zero (mantissa exponent : Nat) : raise mantissa exponent 0 = mantissa :=
  if_pos (.inl (Nat.two_pow_pos exponent))

namespace Cut

theorem divHalfEven_eq (h : Cut n mantissa exponent remainder) :
    divHalfEven n (2 ^ exponent) = raise mantissa exponent remainder := by
  have quotient : n / 2 ^ exponent = mantissa := by
    rw [h.eq, Nat.mul_comm, Nat.mul_add_div (Nat.two_pow_pos _), Nat.div_eq_of_lt h.remainder_lt,
      Nat.add_zero]
  have rest : n % 2 ^ exponent = remainder := by
    rw [h.eq, Nat.mul_comm, Nat.mul_add_mod, Nat.mod_eq_of_lt h.remainder_lt]
  rw [divHalfEven, quotient, rest]
  rfl

theorem remainder_eq_zero (h : Cut n mantissa 0 remainder) : remainder = 0 :=
  Nat.lt_one_iff.mp h.remainder_lt

theorem le (h : Cut n mantissa exponent remainder) (normal : 2 ^ 52 ≤ mantissa) :
    exponentUnit * 2 ^ exponent ≤ n :=
  calc exponentUnit * 2 ^ exponent ≤ mantissa * 2 ^ exponent := Nat.mul_le_mul_right _ normal
    _ ≤ mantissa * 2 ^ exponent + remainder := Nat.le_add_right ..
    _ = n := h.eq.symm

theorem lt (h : Cut n mantissa exponent remainder) : n < 2 * exponentUnit * 2 ^ exponent :=
  calc n = mantissa * 2 ^ exponent + remainder := h.eq
    _ < mantissa * 2 ^ exponent + 2 ^ exponent := Nat.add_lt_add_left h.remainder_lt _
    _ = (mantissa + 1) * 2 ^ exponent := (Nat.succ_mul ..).symm
    _ ≤ 2 * exponentUnit * 2 ^ exponent := Nat.mul_le_mul_right _ h.mantissa_lt

end Cut

/-! ## Integers -/

/-- One is a power of two, by an exponent that doubles reach. -/
theorem exists_one_eq : ∃ w, one = 2 ^ w ∧ w = 1074 := by
  obtain ⟨w, eq⟩ : ∃ w, w = 1074 := ⟨_, rfl⟩
  exact ⟨w, by rw [one_eq, ← eq]; rfl, eq⟩

theorem dropped_one (n : Nat) : dropped n 1 = excess (n * one) := by rw [dropped, Nat.div_one]

theorem dropped_le {w : Nat} (power : one = 2 ^ w) (lt : n < 2 * exponentUnit * 2 ^ exponent) :
    dropped n 1 ≤ exponent + w := by
  rw [dropped_one, power]
  refine excess_le ?_
  calc n * 2 ^ w < 2 * exponentUnit * 2 ^ exponent * 2 ^ w :=
        Nat.mul_lt_mul_of_pos_right lt (Nat.two_pow_pos w)
    _ = 2 * exponentUnit * 2 ^ (exponent + w) := by ring

theorem le_dropped {w : Nat} (power : one = 2 ^ w) (le : exponentUnit * 2 ^ exponent ≤ n) :
    exponent + w ≤ dropped n 1 := by
  rw [dropped_one, power]
  refine le_excess ?_
  calc exponentUnit * 2 ^ (exponent + w) = exponentUnit * 2 ^ exponent * 2 ^ w := by ring
    _ ≤ n * 2 ^ w := Nat.mul_le_mul_right _ le

/-- Integers are rounded as they are cut. -/
theorem rounded_eq_of_cut (cut : Cut n mantissa exponent remainder) :
    rounded n 1 * 2 ^ dropped n 1 = raise mantissa exponent remainder * 2 ^ exponent * one := by
  obtain ⟨w, power, -⟩ := exists_one_eq
  have few : dropped n 1 ≤ exponent + w := dropped_le power cut.lt
  rw [rounded, spacing, Nat.one_mul]
  rcases cut.normal with rfl | normal
  · obtain rfl := cut.remainder_eq_zero
    have exact : n * one = n * 2 ^ (w - dropped n 1) * 2 ^ dropped n 1 := by
      rw [power, Nat.mul_assoc, ← Nat.pow_add, Nat.sub_add_cancel (Nat.zero_add w ▸ few)]
    rw [exact, divHalfEven_mul_left (Nat.two_pow_pos _), ← exact, raise_zero, cut.eq, Nat.add_zero]
  · have scale : dropped n 1 = exponent + w :=
      Nat.le_antisymm few (le_dropped power (cut.le normal))
    rw [scale, Nat.pow_add, ← power, divHalfEven_mul_right one_pos, cut.divHalfEven_eq,
      Nat.mul_assoc]

theorem nearestMagnitude_lt (lt : n < 2 ^ 64) : nearestMagnitude n 1 < infinity := by
  obtain ⟨w, power, exponent⟩ := exists_one_eq
  have scale : dropped n 1 ≤ 11 + w := dropped_le power lt
  have digits : rounded n 1 ≤ 2 * exponentUnit := rounded_le Nat.one_pos
  rw [nearestMagnitude_eq]
  simp only [infinity, exponentUnit] at *
  omega

variable {a : Int}

theorem isFinite_ofInt (lt : a.natAbs < 2 ^ 64) : (ofInt a).isFinite :=
  decide_eq_true (nearestMagnitude_lt lt)

theorem signed_mul (negative : Bool) (m n : Nat) :
    signed negative (m * n) = signed negative m * n := by
  cases negative
  · exact Int.natCast_mul m n
  · rw [signed, signed, if_pos rfl, if_pos rfl, Int.natCast_mul, Int.neg_mul]

theorem signed_natAbs (a : Int) : signed (a < 0) a.natAbs = a := by
  simp only [signed, decide_eq_true_eq]
  split <;> omega

theorem isNearest_ofInt (lt : a.natAbs < 2 ^ 64) : (ofInt a).IsNearest a 1 := by
  have nearest : (ofInt a).IsNearest (signed (a < 0) a.natAbs) 1 :=
    isNearest_nearest Nat.one_pos (isFinite_ofInt lt)
  rwa [signed_natAbs] at nearest

/-- The digits of the double are those of the integer, with the remainder rounded. -/
theorem units_ofInt (lt : a.natAbs < 2 ^ 64) (cut : Cut a.natAbs mantissa exponent remainder) :
    (ofInt a).units = signed (a < 0) (raise mantissa exponent remainder * 2 ^ exponent * one) := by
  rw [← rounded_eq_of_cut cut,
    ← magnitudeUnits_nearestMagnitude Nat.one_pos (nearestMagnitude_lt lt)]
  rfl

/-- No digits are dropped of an integer of fifty-three bits. -/
theorem units_ofInt_of_le (le : a.natAbs ≤ 2 ^ 53) : (ofInt a).units = a * one := by
  have kept : ∃ mantissa exponent, Cut a.natAbs mantissa exponent 0 := by
    rcases Nat.lt_or_eq_of_le le with lt | eq
    · exact ⟨a.natAbs, 0, by omega, Nat.one_pos, lt, .inl rfl⟩
    · exact ⟨2 ^ 52, 1, eq, Nat.two_pos, by decide, .inr (Nat.le_refl _)⟩
  obtain ⟨mantissa, exponent, cut⟩ := kept
  have exact : mantissa * 2 ^ exponent = a.natAbs := cut.eq.symm
  rw [units_ofInt (Nat.lt_of_le_of_lt le (by decide)) cut, raise_zero, exact, signed_mul,
    signed_natAbs]

/-- No integer becomes a zero with a sign. -/
theorem ofInt_ne_negative_zero (lt : a.natAbs < 2 ^ 64) :
    ¬((ofInt a).negative = true ∧ (ofInt a).magnitude = 0) := by
  rintro ⟨negative, zero⟩
  have below : a ≤ -1 := by
    have : a < 0 := of_decide_eq_true negative
    omega
  have le : (ofInt a).units ≤ (ofInt (-1)).units :=
    (isNearest_ofInt lt).units_le Nat.one_pos (isNearest_ofInt (by decide)) below
  have none : (ofInt a).units = 0 := by
    rw [units_eq_signed, zero, magnitudeUnits_zero, signed_zero]
  have minus : (ofInt (-1)).units = -1 * one := units_ofInt_of_le (by decide)
  have positive : 0 < one := one_pos
  omega

end Double

/-- An integer of one of the ten types.  Sizes have sixty-four bits. -/
inductive Integer where
  | int8 (n : Int8)
  | int16 (n : Int16)
  | int32 (n : Int32)
  | int64 (n : Int64)
  | isize (n : Int64)
  | uint8 (n : UInt8)
  | uint16 (n : UInt16)
  | uint32 (n : UInt32)
  | uint64 (n : UInt64)
  | usize (n : UInt64)

namespace Integer

def exact : Integer → Int
  | int8 n => n.toInt
  | int16 n => n.toInt
  | int32 n => n.toInt
  | int64 n => n.toInt
  | isize n => n.toInt
  | uint8 n => n.toNat
  | uint16 n => n.toNat
  | uint32 n => n.toNat
  | uint64 n => n.toNat
  | usize n => n.toNat

/-- What the type of the integer makes of it. -/
def value : Integer → Value
  | int8 n => toValue n
  | int16 n => toValue n
  | int32 n => toValue n
  | int64 n => toValue n
  | isize n => toValue n
  | uint8 n => toValue n
  | uint16 n => toValue n
  | uint32 n => toValue n
  | uint64 n => toValue n
  | usize n => toValue n

theorem value_eq (a : Integer) : a.value = .number (.ofInt a.exact) := by cases a <;> rfl

theorem range (a : Integer) :
    -0x8000000000000000 ≤ a.exact ∧ a.exact < 0x10000000000000000 := by
  cases a with
  | int8 n | int16 n | int32 n | int64 n | isize n =>
    have low := n.le_toInt
    have high := n.toInt_lt
    simp only [exact]
    omega
  | uint8 n | uint16 n | uint32 n | uint64 n | usize n =>
    have high := n.toNat_lt
    simp only [exact]
    omega

theorem natAbs_exact_lt (a : Integer) : a.exact.natAbs < 2 ^ 64 := by
  have := a.range
  omega

/-- An integer of any type becomes the number nearest to it, a tie going to the even one.  The
number is finite and never a zero with a sign, and it is the integer itself up to `2 ^ 53`.  In
general the integer is cut to fifty-three bits, and the mantissa is raised if the remainder is more
than half, or half and the mantissa odd.

The numbers are in the order of the integers.  They are equal values exactly if one double is the
nearest to both integers.  Whatever else rounds an integer to the nearest double makes an equal
value of it, and conversion through JSON is a case of this. -/
theorem value_rounded :
    (∀ a : Integer, ∃ x, a.value = .number x ∧ x.IsNearest a.exact 1 ∧
      ¬(x.negative = true ∧ x.magnitude = 0) ∧
      (a.exact.natAbs ≤ 2 ^ 53 → x.units = a.exact * Double.one) ∧
      ∃ mantissa exponent remainder, Double.Cut a.exact.natAbs mantissa exponent remainder ∧
        x.units = Double.signed (a.exact < 0)
          (Double.raise mantissa exponent remainder * 2 ^ exponent * Double.one)) ∧
    (∀ a b : Integer, ∀ x y, a.value = .number x → b.value = .number y →
      a.exact ≤ b.exact → x.units ≤ y.units) ∧
    (∀ a b : Integer, (a.value == b.value) = true ↔
      ∃ x : Double, x.IsNearest a.exact 1 ∧ x.IsNearest b.exact 1) ∧
    ∀ a : Integer, (∀ x : Double, x.IsNearest a.exact 1 → (Value.number x == a.value) = true) ∧
      (toValue (Json.number (.integer a.exact a.range)) == a.value) = true := by
  have rounds : ∀ a : Integer, ∀ x : Double, x.IsNearest a.exact 1 →
      (Value.number x == a.value) = true := by
    intro a x nearest
    rw [value_eq, Value.number_beq]
    exact nearest.beq Nat.one_pos (Double.isNearest_ofInt a.natAbs_exact_lt)
  refine ⟨fun a => ?_, fun a b x y eq eq' le => ?_, fun a b => ?_, fun a => ⟨rounds a, ?_⟩⟩
  · obtain ⟨mantissa, exponent, remainder, cut⟩ := Double.exists_cut a.exact.natAbs
    exact ⟨.ofInt a.exact, a.value_eq, Double.isNearest_ofInt a.natAbs_exact_lt,
      Double.ofInt_ne_negative_zero a.natAbs_exact_lt, Double.units_ofInt_of_le,
      mantissa, exponent, remainder, cut, Double.units_ofInt a.natAbs_exact_lt cut⟩
  · rw [value_eq] at eq eq'
    obtain rfl := Value.number.inj eq
    obtain rfl := Value.number.inj eq'
    exact (Double.isNearest_ofInt a.natAbs_exact_lt).units_le Nat.one_pos
      (Double.isNearest_ofInt b.natAbs_exact_lt) le
  · rw [value_eq, value_eq, Value.number_beq]
    exact (Double.isNearest_ofInt a.natAbs_exact_lt).beq_iff Nat.one_pos
      (Double.isNearest_ofInt b.natAbs_exact_lt)
  · exact rounds a (.ofInt a.exact) (Double.isNearest_ofInt a.natAbs_exact_lt)

-- the largest integer has more ones than fit, and is raised to the next power of two
example : (Double.ofInt 0xffffffffffffffff).units = 0x10000000000000000 * Double.one := by
  decide +kernel

end Integer

end SchemaValidation
