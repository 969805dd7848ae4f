import Mathlib.Data.List.TakeWhile

/-!
# Numerals

A number is written in decimal digits, and what follows is told apart from them as long as it does
not start with a digit.  So a number can be read off the front of a text
(`Text.toDigits_append_inj`), and from its numeral alone.
-/

namespace SchemaValidation

namespace Text

theorem isDigit_of_mem_toDigits {n : Nat} {c : Char} (mem : c ∈ Nat.toDigits 10 n) :
    c.isDigit = true :=
  Nat.isDigit_of_mem_toDigits (by decide) (by decide) mem

theorem toList_toString (n : Nat) : (toString n).toList = Nat.toDigits 10 n := by
  rw [Nat.toString_eq_ofList_toDigits, String.toList_ofList]

theorem toDigits_injective {m n : Nat} (h : Nat.toDigits 10 m = Nat.toDigits 10 n) : m = n :=
  calc m = Nat.ofDigitChars 10 (Nat.toDigits 10 m) 0 := Nat.ofDigitChars_ten_toDigits.symm
    _ = Nat.ofDigitChars 10 (Nat.toDigits 10 n) 0 := by rw [h]
    _ = n := Nat.ofDigitChars_ten_toDigits

/-- Digits end where something else begins. -/
theorem takeWhile_isDigit (n : Nat) {c : Char} {rest : List Char} (stop : c.isDigit = false) :
    (Nat.toDigits 10 n ++ c :: rest).takeWhile Char.isDigit = Nat.toDigits 10 n := by
  rw [List.takeWhile_append_of_pos fun _ => isDigit_of_mem_toDigits, List.takeWhile_cons, stop]
  exact List.append_nil _

/-- A number is read off the front of a text. -/
theorem toDigits_append_inj {m n : Nat} {c d : Char} {rest rest' : List Char}
    (stop : c.isDigit = false) (stop' : d.isDigit = false)
    (h : Nat.toDigits 10 m ++ c :: rest = Nat.toDigits 10 n ++ d :: rest') :
    m = n ∧ c = d ∧ rest = rest' := by
  have digits : Nat.toDigits 10 m = Nat.toDigits 10 n := by
    rw [← takeWhile_isDigit m stop, h, takeWhile_isDigit n stop']
  rw [digits] at h
  obtain ⟨first, others⟩ := List.cons.inj (List.append_cancel_left h)
  exact ⟨toDigits_injective digits, first, others⟩

theorem notMem_toString {c : Char} (other : c.isDigit = false) (n : Nat) :
    c ∉ (toString n).toList := by
  intro mem
  rw [toList_toString] at mem
  rw [isDigit_of_mem_toDigits mem] at other
  cases other

end Text

end SchemaValidation
