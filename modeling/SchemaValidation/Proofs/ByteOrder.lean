import Mathlib.Data.List.Lex
import Mathlib.Tactic.SplitIfs

/-!
# The order of bytes

Strings are ordered by code point, character by character.  As lists of their UTF-8 bytes they are
ordered the same (`utf8_lt_iff`): the bytes of two characters differ first at a byte that is less in
the lesser character, and neither list of bytes starts the other.
-/

namespace SchemaValidation

/-- The bytes of a string. -/
def utf8 (s : String) : List UInt8 := s.toByteArray.data.toList

theorem utf8_eq_flatMap (s : String) : utf8 s = s.toList.flatMap String.utf8EncodeChar := by
  rw [utf8, ← String.utf8Encode_toList, List.utf8Encode, List.data_toByteArray]

theorem ofNat_cons_lt_iff {m n : Nat} (hm : m < 256) (hn : n < 256) (as bs : List UInt8) :
    UInt8.ofNat m :: as < UInt8.ofNat n :: bs ↔ m < n ∨ m = n ∧ as < bs := by
  rw [List.cons_lt_cons_iff, UInt8.lt_iff_toNat_lt, ← UInt8.toNat_inj,
    UInt8.toNat_ofNat_of_lt' hm, UInt8.toNat_ofNat_of_lt' hn]

/-- Numbers compare by their quotients, and then by their remainders. -/
theorem div_mod_lt {m n : Nat} (k : Nat) (h : m < n) :
    m / k < n / k ∨ m / k = n / k ∧ m % k < n % k := by
  rcases Nat.lt_or_eq_of_le (Nat.div_le_div_right (c := k) h.le) with lt | eq
  · exact .inl lt
  · refine .inr ⟨eq, ?_⟩
    have left := Nat.div_add_mod m k
    have right := Nat.div_add_mod n k
    rw [eq] at left
    omega

/-- Whatever comes after them, the bytes of a lesser character are less. -/
theorem utf8EncodeChar_append_lt {c d : Char} (h : c < d) (as bs : List UInt8) :
    String.utf8EncodeChar c ++ as < String.utf8EncodeChar d ++ bs := by
  have lt : c.val.toNat < d.val.toNat := h
  have valid : d.val.toNat < 1114112 := by
    rcases d.valid with h | h
    · exact h.trans (by decide)
    · exact h.2
  simp only [String.utf8EncodeChar]
  generalize c.val.toNat = m at *
  generalize d.val.toNat = n at *
  -- the bytes hold the digits to the base 64, of which the first that differ are compared
  have digits := div_mod_lt 64 lt
  have digits' := fun lt : m / 64 < n / 64 => div_mod_lt 64 lt
  have digits'' := fun lt : m / 64 / 64 < n / 64 / 64 => div_mod_lt 64 lt
  simp only [Nat.div_div_eq_div_mul, Nat.reduceMul] at digits digits' digits''
  have first : m / 262144 % 8 = m / 262144 := Nat.mod_eq_of_lt (by omega)
  have first' : n / 262144 % 8 = n / 262144 := Nat.mod_eq_of_lt (by omega)
  split_ifs <;>
    simp (disch := omega) only [List.cons_append, List.nil_append, ofNat_cons_lt_iff] <;>
    omega

theorem flatMap_utf8EncodeChar_lt {cs ds : List Char} (h : cs < ds) :
    cs.flatMap String.utf8EncodeChar < ds.flatMap String.utf8EncodeChar := by
  induction h with
  | @nil d ds =>
    obtain ⟨b, bs, eq⟩ := List.exists_cons_of_ne_nil (String.utf8EncodeChar_ne_nil (c := d))
    rw [List.flatMap_cons, eq]
    exact .nil
  | cons _ ih =>
    rw [List.flatMap_cons, List.flatMap_cons]
    exact List.Lex.append_left _ ih _
  | rel lt =>
    rw [List.flatMap_cons, List.flatMap_cons]
    exact utf8EncodeChar_append_lt lt _ _

/-- Strings are ordered as their bytes are. -/
theorem utf8_lt_iff {s t : String} : utf8 s < utf8 t ↔ s < t := by
  have increases {s t : String} (lt : s < t) : utf8 s < utf8 t := by
    rw [utf8_eq_flatMap, utf8_eq_flatMap]
    exact flatMap_utf8EncodeChar_lt lt
  refine ⟨fun lt => ?_, increases⟩
  by_contra not
  by_cases eq : t = s
  · exact List.lt_irrefl _ (eq ▸ lt)
  · exact List.lt_asymm lt (increases (Std.lt_of_le_of_ne (String.not_lt.mp not) eq))

theorem utf8_le_iff {s t : String} : utf8 s ≤ utf8 t ↔ s ≤ t := by
  rw [← List.not_lt, ← String.not_lt, utf8_lt_iff]

/-- Strings increase as their bytes do. -/
theorem pairwise_map_utf8_iff {strings : List String} :
    (strings.map utf8).Pairwise (· < ·) ↔ strings.Pairwise (· < ·) := by
  simp only [List.pairwise_map, utf8_lt_iff]

end SchemaValidation
