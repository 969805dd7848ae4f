import SchemaValidation.Double.Nearest
import Mathlib.Data.Nat.Dist
import Mathlib.Order.Monotone.Basic
import Mathlib.Tactic.Ring

/-!
# Rounding

What `Double.nearest` finds is nearest to the quotient among all finite doubles, and where two are
as near it is the even one (`Double.isNearest_nearest`).

At the scale of the quotient, the doubles are the multiples of one power of two, and rounding finds
the nearest of them.  Those of lower scales need not be multiples.  But they lie below all quotients
of the scale, and so does the least multiple, which is nearer.

Being nearest determines the value: if two doubles are at equal distance from the quotient, one is
odd or a third lies between them (`Double.IsNearest.units_eq`).  So rounding is monotone, whatever
finds the double (`Double.IsNearest.units_le`).  All distances are of integers, which count units of
`2 ^ (-1074)`.
-/

namespace SchemaValidation

variable {n d k : Nat}

/-! ## Multiples -/

theorem divHalfEven_eq_or (n d : Nat) :
    divHalfEven n d = n / d ∧ 2 * (n % d) ≤ d ∨
      divHalfEven n d = n / d + 1 ∧ d ≤ 2 * (n % d) := by
  rw [divHalfEven]
  split <;> omega

theorem even_divHalfEven (half : 2 * (n % d) = d) : divHalfEven n d % 2 = 0 := by
  rw [divHalfEven]
  split <;> omega

/-- The rounded multiple is off by the remainder, or by what the remainder lacks. -/
theorem dist_divHalfEven (positive : 0 < d) :
    Nat.dist (divHalfEven n d * d) n = min (n % d) (d - n % d) := by
  have cut : n / d * d + n % d = n := Nat.div_add_mod' n d
  have below : n % d < d := Nat.mod_lt n positive
  rw [Nat.dist]
  rcases divHalfEven_eq_or n d with ⟨eq, half⟩ | ⟨eq, half⟩
  · rw [eq]
    omega
  · rw [eq, Nat.add_one_mul (n / d)]
    omega

/-- Not both of two multiples are near. -/
theorem le_dist_add_dist {j : Nat} (ne : j ≠ k) :
    d ≤ Nat.dist (j * d) n + Nat.dist (k * d) n :=
  calc d ≤ Nat.dist j k * d := Nat.le_mul_of_pos_left d (Nat.dist_pos_of_ne ne)
    _ = Nat.dist (j * d) (k * d) := (Nat.dist_mul_right j d k).symm
    _ ≤ Nat.dist (j * d) n + Nat.dist n (k * d) := Nat.dist.triangle_inequality ..
    _ = Nat.dist (j * d) n + Nat.dist (k * d) n := by rw [Nat.dist_comm n]

/-- No multiple is nearer than the rounded one. -/
theorem dist_divHalfEven_le (positive : 0 < d) (k : Nat) :
    Nat.dist (divHalfEven n d * d) n ≤ Nat.dist (k * d) n := by
  by_cases same : k = divHalfEven n d
  · rw [same]
  · have apart : d ≤ Nat.dist (k * d) n + Nat.dist (divHalfEven n d * d) n := le_dist_add_dist same
    have off := dist_divHalfEven (n := n) positive
    omega

theorem even_divHalfEven_of_tie (positive : 0 < d) (other : k ≠ divHalfEven n d)
    (tie : Nat.dist (divHalfEven n d * d) n = Nat.dist (k * d) n) : divHalfEven n d % 2 = 0 := by
  have apart : d ≤ Nat.dist (k * d) n + Nat.dist (divHalfEven n d * d) n := le_dist_add_dist other
  have off := dist_divHalfEven (n := n) positive
  exact even_divHalfEven (by omega)

theorem divHalfEven_mul_right {c : Nat} (positive : 0 < c) (n d : Nat) :
    divHalfEven (n * c) (d * c) = divHalfEven n d := by
  have lt : 2 * (n % d * c) < d * c ↔ 2 * (n % d) < d := by
    rw [← Nat.mul_assoc, Nat.mul_lt_mul_right positive]
  have eq : 2 * (n % d * c) = d * c ↔ 2 * (n % d) = d := by
    rw [← Nat.mul_assoc, Nat.mul_left_inj positive.ne']
  simp only [divHalfEven, Nat.mul_div_mul_right n d positive, Nat.mul_mod_mul_right, lt, eq]

theorem divHalfEven_mul_left (positive : 0 < d) (k : Nat) : divHalfEven (k * d) d = k := by
  rw [divHalfEven, Nat.mul_mod_left, Nat.mul_div_left k positive, if_pos (.inl positive)]

theorem le_divHalfEven (positive : 0 < d) (le : k * d ≤ n) : k ≤ divHalfEven n d := by
  have le : k ≤ n / d := (Nat.le_div_iff_mul_le positive).mpr le
  rcases divHalfEven_eq_or n d with ⟨eq, -⟩ | ⟨eq, -⟩ <;> omega

theorem divHalfEven_le (lt : n < k * d) : divHalfEven n d ≤ k := by
  have lt : n / d < k := Nat.div_lt_of_lt_mul (Nat.mul_comm k d ▸ lt)
  rcases divHalfEven_eq_or n d with ⟨eq, -⟩ | ⟨eq, -⟩ <;> omega

/-! ## Fifty-three bits -/

namespace Double

/-- The number of bits to drop, so that no more than fifty-three are left. -/
def excess (n : Nat) : Nat := n.log2 - 52

theorem le_of_excess (n : Nat) : excess n = 0 ∨ exponentUnit * 2 ^ excess n ≤ n := by
  by_cases few : excess n = 0
  · exact .inl few
  · right
    have many : 52 + excess n = n.log2 := Nat.add_sub_of_le (by rw [excess] at few; omega)
    have ne : n ≠ 0 := by
      rintro rfl
      exact few rfl
    calc exponentUnit * 2 ^ excess n = 2 ^ (52 + excess n) := (Nat.pow_add 2 52 _).symm
      _ ≤ n := many ▸ Nat.log2_self_le ne

theorem lt_of_excess (n : Nat) : n < 2 * exponentUnit * 2 ^ excess n :=
  calc n < 2 ^ (n.log2 + 1) := Nat.lt_log2_self
    _ ≤ 2 ^ (53 + excess n) := Nat.pow_le_pow_right Nat.two_pos (by rw [excess]; omega)
    _ = 2 * exponentUnit * 2 ^ excess n := Nat.pow_add 2 53 _

theorem excess_le (lt : n < 2 * exponentUnit * 2 ^ k) : excess n ≤ k := by
  rcases le_of_excess n with eq | le
  · omega
  · have lt : exponentUnit * 2 ^ excess n < exponentUnit * 2 ^ (k + 1) := by
      calc exponentUnit * 2 ^ excess n < 2 * exponentUnit * 2 ^ k := Nat.lt_of_le_of_lt le lt
        _ = exponentUnit * 2 ^ (k + 1) := by ring
    have := (Nat.pow_lt_pow_iff_right (by decide)).mp (Nat.lt_of_mul_lt_mul_left lt)
    omega

theorem le_excess (le : exponentUnit * 2 ^ k ≤ n) : k ≤ excess n := by
  have lt : exponentUnit * 2 ^ k < exponentUnit * 2 ^ (excess n + 1) := by
    calc exponentUnit * 2 ^ k < 2 * exponentUnit * 2 ^ excess n :=
          Nat.lt_of_le_of_lt le (lt_of_excess n)
      _ = exponentUnit * 2 ^ (excess n + 1) := by ring
  have := (Nat.pow_lt_pow_iff_right (by decide)).mp (Nat.lt_of_mul_lt_mul_left lt)
  omega

/-! ## Magnitudes -/

/-- The number of doublings that the exponent of a magnitude stands for. -/
def scale (magnitude : Nat) : Nat := magnitude / exponentUnit - 1

/-- The digits of a magnitude, with the leading one that the exponent adds. -/
def digits (magnitude : Nat) : Nat := magnitude - scale magnitude * exponentUnit

variable {m s : Nat}

theorem magnitudeUnits_eq (m : Nat) : magnitudeUnits m = digits m * 2 ^ scale m := rfl

theorem scale_mul_add_digits (m : Nat) : scale m * exponentUnit + digits m = m := by
  simp only [digits, scale, exponentUnit]
  omega

theorem digits_lt (m : Nat) : digits m < 2 * exponentUnit := by
  simp only [digits, scale, exponentUnit]
  omega

theorem le_digits (m : Nat) : scale m = 0 ∨ exponentUnit ≤ digits m := by
  simp only [digits, scale, exponentUnit]
  omega

/-- Digits that carry are counted at the next scale. -/
theorem magnitudeUnits_add (normal : s = 0 ∨ exponentUnit ≤ d) (le : d ≤ 2 * exponentUnit) :
    magnitudeUnits (s * exponentUnit + d) = d * 2 ^ s := by
  by_cases carry : d = 2 * exponentUnit
  · have next : scale (s * exponentUnit + d) = s + 1 := by
      simp only [scale, exponentUnit] at *
      omega
    have leading : digits (s * exponentUnit + d) = exponentUnit := by
      rw [digits, next]
      simp only [exponentUnit] at *
      omega
    rw [magnitudeUnits_eq, next, leading, carry]
    ring
  · have same : scale (s * exponentUnit + d) = s := by
      simp only [scale, exponentUnit] at *
      omega
    rw [magnitudeUnits_eq, digits, same, Nat.add_sub_cancel_left]

theorem magnitudeUnits_zero : magnitudeUnits 0 = 0 := by decide

theorem strictMono_magnitudeUnits : StrictMono magnitudeUnits := by
  refine strictMono_nat_of_lt_succ fun m => ?_
  have next : magnitudeUnits (m + 1) = (digits m + 1) * 2 ^ scale m := by
    rw [← magnitudeUnits_add ((le_digits m).imp_right Nat.le_succ_of_le) (digits_lt m),
      Nat.succ_eq_add_one, ← Nat.add_assoc, scale_mul_add_digits]
  rw [next, magnitudeUnits_eq]
  exact Nat.mul_lt_mul_of_pos_right (Nat.lt_succ_self _) (Nat.two_pow_pos _)

/-- A magnitude is a multiple of a power of two, or below all that are cut by it. -/
theorem multiple_or_lt (m s : Nat) :
    (∃ k, magnitudeUnits m = k * 2 ^ s) ∨ s ≠ 0 ∧ magnitudeUnits m < exponentUnit * 2 ^ s := by
  rcases Nat.lt_or_ge (scale m) s with lt | le
  · right
    refine ⟨Nat.ne_zero_of_lt lt, ?_⟩
    calc magnitudeUnits m < 2 * exponentUnit * 2 ^ scale m :=
          Nat.mul_lt_mul_of_pos_right (digits_lt m) (Nat.two_pow_pos _)
      _ = exponentUnit * 2 ^ (scale m + 1) := by ring
      _ ≤ exponentUnit * 2 ^ s := Nat.mul_le_mul_left _ (Nat.pow_le_pow_right Nat.two_pos lt)
  · left
    refine ⟨digits m * 2 ^ (scale m - s), ?_⟩
    rw [magnitudeUnits_eq, Nat.mul_assoc, ← Nat.pow_add, Nat.sub_add_cancel le]

/-! ## The nearest magnitude -/

/-- The number of units in one. -/
def one : Nat := magnitudeUnits 0x3ff0000000000000

theorem one_eq : one = Nat.pow 2 1074 := by decide +kernel

theorem one_pos : 0 < one :=
  Nat.zero_lt_of_lt (strictMono_magnitudeUnits (show 0 < 0x3ff0000000000000 by decide))

variable {numerator denominator : Nat}

/-- The scale of a quotient. -/
def dropped (numerator denominator : Nat) : Nat := excess (numerator * one / denominator)

/-- How far apart the doubles of the scale are, times the denominator. -/
def spacing (numerator denominator : Nat) : Nat := denominator * 2 ^ dropped numerator denominator

def rounded (numerator denominator : Nat) : Nat :=
  divHalfEven (numerator * one) (spacing numerator denominator)

theorem spacing_pos (positive : 0 < denominator) : 0 < spacing numerator denominator :=
  Nat.mul_pos positive (Nat.two_pow_pos _)

theorem le_of_dropped (positive : 0 < denominator) (coarse : dropped numerator denominator ≠ 0) :
    exponentUnit * spacing numerator denominator ≤ numerator * one := by
  have le : exponentUnit * 2 ^ dropped numerator denominator ≤ numerator * one / denominator :=
    (le_of_excess _).resolve_left coarse
  calc exponentUnit * spacing numerator denominator
      = exponentUnit * 2 ^ dropped numerator denominator * denominator := by rw [spacing]; ring
    _ ≤ numerator * one := (Nat.le_div_iff_mul_le positive).mp le

theorem lt_of_dropped (positive : 0 < denominator) :
    numerator * one < 2 * exponentUnit * spacing numerator denominator := by
  have lt : numerator * one / denominator < 2 * exponentUnit * 2 ^ dropped numerator denominator :=
    lt_of_excess _
  calc numerator * one < 2 * exponentUnit * 2 ^ dropped numerator denominator * denominator :=
        (Nat.div_lt_iff_lt_mul positive).mp lt
    _ = 2 * exponentUnit * spacing numerator denominator := by rw [spacing]; ring

theorem le_rounded (positive : 0 < denominator) :
    dropped numerator denominator = 0 ∨ exponentUnit ≤ rounded numerator denominator := by
  by_cases fine : dropped numerator denominator = 0
  · exact .inl fine
  · exact .inr (le_divHalfEven (spacing_pos positive) (le_of_dropped positive fine))

theorem rounded_le (positive : 0 < denominator) :
    rounded numerator denominator ≤ 2 * exponentUnit :=
  divHalfEven_le (lt_of_dropped positive)

theorem nearestMagnitude_eq (numerator denominator : Nat) :
    nearestMagnitude numerator denominator = min infinity
      (dropped numerator denominator * exponentUnit + rounded numerator denominator) := by
  rw [rounded, spacing, dropped, excess, one_eq]
  rfl

theorem nearestMagnitude_of_finite (finite : nearestMagnitude numerator denominator < infinity) :
    nearestMagnitude numerator denominator =
      dropped numerator denominator * exponentUnit + rounded numerator denominator := by
  rw [nearestMagnitude_eq] at *
  omega

theorem magnitudeUnits_nearestMagnitude (positive : 0 < denominator)
    (finite : nearestMagnitude numerator denominator < infinity) :
    magnitudeUnits (nearestMagnitude numerator denominator) =
      rounded numerator denominator * 2 ^ dropped numerator denominator := by
  rw [nearestMagnitude_of_finite finite,
    magnitudeUnits_add (le_rounded positive) (rounded_le positive)]

/-- How far a magnitude is from a quotient, times the denominator. -/
def off (m numerator denominator : Nat) : Nat :=
  Nat.dist (magnitudeUnits m * denominator) (numerator * one)

theorem off_of_eq_mul (eq : magnitudeUnits m = k * 2 ^ dropped numerator denominator) :
    off m numerator denominator =
      Nat.dist (k * spacing numerator denominator) (numerator * one) := by
  rw [off, eq, spacing]
  ring_nf

theorem off_nearestMagnitude (positive : 0 < denominator)
    (finite : nearestMagnitude numerator denominator < infinity) :
    off (nearestMagnitude numerator denominator) numerator denominator =
      Nat.dist (rounded numerator denominator * spacing numerator denominator)
        (numerator * one) :=
  off_of_eq_mul (magnitudeUnits_nearestMagnitude positive finite)

/-- Between a magnitude of a lower scale and the quotient is the least multiple. -/
theorem off_nearestMagnitude_lt (positive : 0 < denominator)
    (finite : nearestMagnitude numerator denominator < infinity)
    (coarse : dropped numerator denominator ≠ 0)
    (lt : magnitudeUnits m < exponentUnit * 2 ^ dropped numerator denominator) :
    off (nearestMagnitude numerator denominator) numerator denominator <
      off m numerator denominator := by
  have below : magnitudeUnits m * denominator < exponentUnit * spacing numerator denominator :=
    calc magnitudeUnits m * denominator
        < exponentUnit * 2 ^ dropped numerator denominator * denominator :=
          Nat.mul_lt_mul_of_pos_right lt positive
      _ = exponentUnit * spacing numerator denominator := by rw [spacing]; ring
  have least : exponentUnit * spacing numerator denominator ≤ numerator * one :=
    le_of_dropped positive coarse
  rw [off_nearestMagnitude positive finite]
  calc Nat.dist (rounded numerator denominator * spacing numerator denominator) (numerator * one)
      ≤ Nat.dist (exponentUnit * spacing numerator denominator) (numerator * one) :=
        dist_divHalfEven_le (spacing_pos positive) exponentUnit
    _ < off m numerator denominator := by
        simp only [off, Nat.dist]
        omega

theorem off_nearestMagnitude_le (positive : 0 < denominator)
    (finite : nearestMagnitude numerator denominator < infinity) (m : Nat) :
    off (nearestMagnitude numerator denominator) numerator denominator ≤
      off m numerator denominator := by
  rcases multiple_or_lt m (dropped numerator denominator) with ⟨k, eq⟩ | ⟨coarse, lt⟩
  · rw [off_nearestMagnitude positive finite, off_of_eq_mul eq]
    exact dist_divHalfEven_le (spacing_pos positive) k
  · exact Nat.le_of_lt (off_nearestMagnitude_lt positive finite coarse lt)

/-- If another magnitude is as near, it is the odd one. -/
theorem eq_or_even_of_tie (positive : 0 < denominator)
    (finite : nearestMagnitude numerator denominator < infinity)
    (tie : off (nearestMagnitude numerator denominator) numerator denominator =
      off m numerator denominator) :
    magnitudeUnits m = magnitudeUnits (nearestMagnitude numerator denominator) ∨
      nearestMagnitude numerator denominator % 2 = 0 := by
  rcases multiple_or_lt m (dropped numerator denominator) with ⟨k, eq⟩ | ⟨coarse, lt⟩
  · by_cases same : k = rounded numerator denominator
    · left
      rw [eq, same, magnitudeUnits_nearestMagnitude positive finite]
    · right
      rw [off_nearestMagnitude positive finite, off_of_eq_mul eq] at tie
      have even : rounded numerator denominator % 2 = 0 :=
        even_divHalfEven_of_tie (spacing_pos positive) same tie
      rw [nearestMagnitude_of_finite finite]
      simp only [exponentUnit]
      omega
  · exact absurd tie (off_nearestMagnitude_lt positive finite coarse lt).ne

/-! ## Order -/

variable {x y : Double}

/-- Higher ranks stand for higher numbers. -/
theorem units_lt_units_iff : x.units < y.units ↔ x.rank < y.rank := by
  have lt : magnitudeUnits x.magnitude < magnitudeUnits y.magnitude ↔ x.magnitude < y.magnitude :=
    strictMono_magnitudeUnits.lt_iff_lt
  have gt : magnitudeUnits y.magnitude < magnitudeUnits x.magnitude ↔ y.magnitude < x.magnitude :=
    strictMono_magnitudeUnits.lt_iff_lt
  have zero : 0 < magnitudeUnits x.magnitude ↔ 0 < x.magnitude :=
    magnitudeUnits_zero ▸ strictMono_magnitudeUnits.lt_iff_lt
  have zero' : 0 < magnitudeUnits y.magnitude ↔ 0 < y.magnitude :=
    magnitudeUnits_zero ▸ strictMono_magnitudeUnits.lt_iff_lt
  simp only [units, rank]
  cases x.negative <;> cases y.negative <;> simp only [Bool.false_eq_true, ↓reduceIte] <;> omega

theorem units_eq_units_iff : x.units = y.units ↔ x.rank = y.rank := by
  have lt : x.units < y.units ↔ x.rank < y.rank := units_lt_units_iff
  have gt : y.units < x.units ↔ y.rank < x.rank := units_lt_units_iff
  omega

theorem beq_iff_units_eq (finite : x.isFinite) (finite' : y.isFinite) :
    (x == y) = true ↔ x.units = y.units := by
  rw [beq_eq_true, isNaN_of_isFinite finite, isNaN_of_isFinite finite', eq_self, true_and,
    true_and, units_eq_units_iff]

theorem natAbs_rank (x : Double) : x.rank.natAbs = x.magnitude := by
  rw [rank]
  split <;> omega

theorem exists_rank {r : Int} (finite : r.natAbs < infinity) :
    ∃ z : Double, z.isFinite ∧ z.rank = r := by
  refine ⟨⟨r < 0, r.natAbs, Nat.lt_trans finite (by decide)⟩, decide_eq_true finite, ?_⟩
  simp only [rank, decide_eq_true_eq]
  split <;> omega

/-- Between two even numbers there is another one. -/
theorem exists_between (finite : x.isFinite) (finite' : y.isFinite) (even : x.magnitude % 2 = 0)
    (even' : y.magnitude % 2 = 0) (lt : x.units < y.units) :
    ∃ z : Double, z.isFinite ∧ x.units < z.units ∧ z.units < y.units := by
  have ranks : x.rank < y.rank := units_lt_units_iff.mp lt
  have abs : x.rank.natAbs = x.magnitude := natAbs_rank x
  have abs' : y.rank.natAbs = y.magnitude := natAbs_rank y
  have bound : x.magnitude < infinity := of_decide_eq_true finite
  have bound' : y.magnitude < infinity := of_decide_eq_true finite'
  obtain ⟨z, finite, next⟩ := exists_rank (r := x.rank + 1) (by omega)
  refine ⟨z, finite, units_lt_units_iff.mpr ?_, units_lt_units_iff.mpr ?_⟩ <;> omega

/-! ## The nearest double -/

/-- How far a finite double is from a quotient, in units and times the denominator. -/
def error (x : Double) (numerator : Int) (denominator : Nat) : Nat :=
  (x.units * denominator - numerator * one).natAbs

/-- The double is finite, and no finite double is nearer to the quotient.  If another number is as
near, this one is even. -/
structure IsNearest (x : Double) (numerator : Int) (denominator : Nat) : Prop where
  finite : x.isFinite
  nearest : ∀ y : Double, y.isFinite → x.error numerator denominator ≤ y.error numerator denominator
  even : ∀ y : Double, y.isFinite → x.error numerator denominator = y.error numerator denominator →
    y.units = x.units ∨ x.magnitude % 2 = 0

/-- A natural number with a sign. -/
def signed (negative : Bool) (n : Nat) : Int := if negative then -n else n

theorem units_eq_signed (x : Double) :
    x.units = signed x.negative (magnitudeUnits x.magnitude) := rfl

theorem signed_zero (negative : Bool) : signed negative 0 = 0 := by cases negative <;> rfl

variable {negative : Bool}

theorem error_of_sign_eq (same : x.negative = negative) (numerator denominator : Nat) :
    x.error (signed negative numerator) denominator =
      off x.magnitude numerator denominator := by
  rw [error, units_eq_signed, off, Nat.dist, same]
  cases negative <;>
    simp only [signed, Bool.false_eq_true, ↓reduceIte, Int.neg_mul, ← Int.natCast_mul] <;> omega

/-- A number of the other sign is further away than zero. -/
theorem error_of_sign_ne (other : x.negative ≠ negative) (numerator denominator : Nat) :
    x.error (signed negative numerator) denominator =
      magnitudeUnits x.magnitude * denominator + off 0 numerator denominator := by
  rw [error, units_eq_signed, off, magnitudeUnits_zero, Nat.zero_mul, Nat.dist_zero_left,
    Bool.eq_not_of_ne other]
  cases negative <;>
    simp only [signed, Bool.not_true, Bool.not_false, Bool.false_eq_true, ↓reduceIte, Int.neg_mul,
      ← Int.natCast_mul] <;> omega

/-- A quotient is rounded to the nearest double, unless it is so large that no finite one is. -/
theorem isNearest_nearest (positive : 0 < denominator)
    (finite : (nearest negative numerator denominator).isFinite) :
    (nearest negative numerator denominator).IsNearest (signed negative numerator) denominator := by
  have bound : nearestMagnitude numerator denominator < infinity := of_decide_eq_true finite
  have zero := off_nearestMagnitude_le positive bound 0
  have error : (nearest negative numerator denominator).error (signed negative numerator)
      denominator = off (nearestMagnitude numerator denominator) numerator denominator :=
    error_of_sign_eq rfl ..
  refine ⟨finite, fun y _ => ?_, fun y _ tie => ?_⟩
  · rw [error]
    by_cases same : y.negative = negative
    · rw [error_of_sign_eq same]
      exact off_nearestMagnitude_le positive bound y.magnitude
    · rw [error_of_sign_ne same]
      exact Nat.le_trans zero (Nat.le_add_left ..)
  · rw [error] at tie
    by_cases same : y.negative = negative
    · rw [error_of_sign_eq same] at tie
      refine (eq_or_even_of_tie positive bound tie).imp_left fun eq => ?_
      rw [units_eq_signed, units_eq_signed, eq, same]
      rfl
    · rw [error_of_sign_ne same] at tie
      -- the other number is a zero too
      have none : magnitudeUnits y.magnitude = 0 :=
        (Nat.mul_eq_zero.mp (by omega)).resolve_right positive.ne'
      refine (eq_or_even_of_tie positive bound (m := 0) (by omega)).imp_left fun eq => ?_
      rw [magnitudeUnits_zero] at eq
      change _ = signed negative (magnitudeUnits (nearestMagnitude numerator denominator))
      rw [units_eq_signed, none, ← eq, signed_zero, signed_zero]

namespace IsNearest

variable {p q : Int}

theorem units_not_lt (positive : 0 < denominator) (h : x.IsNearest p denominator)
    (h' : y.IsNearest p denominator) : ¬x.units < y.units := by
  intro lt
  have tie : x.error p denominator = y.error p denominator :=
    Nat.le_antisymm (h.nearest y h'.finite) (h'.nearest x h.finite)
  have even : x.magnitude % 2 = 0 := (h.even y h'.finite tie).resolve_left lt.ne'
  have even' : y.magnitude % 2 = 0 := (h'.even x h.finite tie.symm).resolve_left lt.ne
  obtain ⟨z, finite, above, below⟩ := exists_between h.finite h'.finite even even' lt
  have above := Int.mul_lt_mul_of_pos_right above (Int.natCast_pos.mpr positive)
  have below := Int.mul_lt_mul_of_pos_right below (Int.natCast_pos.mpr positive)
  have nearest := h.nearest z finite
  simp only [error] at tie nearest
  omega

/-- Being nearest determines the value. -/
theorem units_eq (positive : 0 < denominator) (h : x.IsNearest p denominator)
    (h' : y.IsNearest p denominator) : x.units = y.units := by
  have := units_not_lt positive h h'
  have := units_not_lt positive h' h
  omega

/-- What is nearest to a larger number is not smaller. -/
theorem units_le (positive : 0 < denominator) (h : x.IsNearest p denominator)
    (h' : y.IsNearest q denominator) (le : p ≤ q) : x.units ≤ y.units := by
  rcases Int.le_iff_eq_or_lt.mp le with rfl | lt
  · exact (h.units_eq positive h').le
  · by_contra gt
    have apart := Int.mul_lt_mul_of_pos_right lt (Int.natCast_pos.mpr one_pos)
    have apart' := Int.mul_lt_mul_of_pos_right (Int.not_le.mp gt) (Int.natCast_pos.mpr positive)
    have nearest := h.nearest y h'.finite
    have nearest' := h'.nearest x h.finite
    simp only [error] at nearest nearest'
    omega

/-- What is equal is as near. -/
theorem of_beq (h : x.IsNearest p denominator) (equal : (x == y) = true) :
    y.IsNearest p denominator := by
  obtain ⟨-, -, same⟩ := beq_eq_true.mp equal
  have magnitude : x.magnitude = y.magnitude := by rw [← natAbs_rank x, same, natAbs_rank]
  have value : x.units = y.units := units_eq_units_iff.mpr same
  have error : x.error p denominator = y.error p denominator := by rw [Double.error, value]; rfl
  refine ⟨?_, ?_, ?_⟩
  · rw [isFinite, ← magnitude]
    exact h.finite
  · rw [← error]
    exact h.nearest
  · rw [← error, ← value, ← magnitude]
    exact h.even

theorem beq (positive : 0 < denominator) (h : x.IsNearest p denominator)
    (h' : y.IsNearest p denominator) : (x == y) = true :=
  (beq_iff_units_eq h.finite h'.finite).mpr (h.units_eq positive h')

/-- Numbers are equal if they are nearest to what one double is nearest to. -/
theorem beq_iff (positive : 0 < denominator) (h : x.IsNearest p denominator)
    (h' : y.IsNearest q denominator) :
    (x == y) = true ↔ ∃ z : Double, z.IsNearest p denominator ∧ z.IsNearest q denominator := by
  constructor
  · intro equal
    exact ⟨y, h.of_beq equal, h'⟩
  · rintro ⟨z, nearest, nearest'⟩
    rw [beq_iff_units_eq h.finite h'.finite, h.units_eq positive nearest,
      h'.units_eq positive nearest']

end IsNearest

end Double

end SchemaValidation
