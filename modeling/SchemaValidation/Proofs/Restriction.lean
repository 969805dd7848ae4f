import SchemaValidation.Proofs.Suite
import Mathlib.Data.List.Forall2

/-!
# Filtered runs

A run of the cases that a filter selects is the run of all cases with everything else left out: the
selected cases have the outcomes and the events that they have in any other company, in their order.

A filter is looked for letter by letter, and a letter matches itself and, if it is an ASCII letter,
the same letter in the other case (`Text.SameLetter`).  A text therefore contains what is contained
in a part of it (`Text.Contains.trans`), so that a shorter filter selects more.
-/

namespace SchemaValidation

namespace Text

/-! ## Letters -/

/-- The same character, or an ASCII capital and its small letter. -/
def SameLetter (c d : Char) : Prop :=
  c = d ∨ (c.isUpper = true ∧ d.toNat = c.toNat + 32) ∨ (d.isUpper = true ∧ c.toNat = d.toNat + 32)

theorem isUpper_iff {c : Char} : c.isUpper = true ↔ 65 ≤ c.toNat ∧ c.toNat ≤ 90 := by
  show decide ('A'.val ≤ c.val ∧ c.val ≤ 'Z'.val) = true ↔ _
  rw [decide_eq_true_iff, UInt32.le_iff_toNat_le, UInt32.le_iff_toNat_le]
  rfl

theorem toNat_toLower (c : Char) :
    c.toLower.toNat = if c.isUpper = true then c.toNat + 32 else c.toNat := by
  delta Char.toLower
  split
  next bounds =>
    have upper : c.isUpper = true := decide_eq_true bounds
    have small : c.toNat ≤ 90 := (isUpper_iff.mp upper).2
    rw [if_pos upper]
    show (c.toNat + 32) % 0x100000000 = c.toNat + 32
    omega
  next bounds =>
    have other : ¬c.isUpper = true := fun upper => bounds (of_decide_eq_true upper)
    rw [if_neg other]

/-- Letters of one small form are the same letter. -/
theorem toLower_eq_toLower_iff {c d : Char} : c.toLower = d.toLower ↔ SameLetter c d := by
  simp only [← Char.toNat_inj, toNat_toLower, SameLetter, isUpper_iff]
  split <;> split <;> omega

theorem foldCase_eq_foldCase_iff {s t : String} :
    foldCase s = foldCase t ↔ List.Forall₂ SameLetter s.toList t.toList := by
  rw [foldCase, foldCase, ← List.forall₂_eq_eq_eq, List.forall₂_map_left_iff,
    List.forall₂_map_right_iff]
  simp only [toLower_eq_toLower_iff]

/-! ## Containment -/

/-- Some part of the text is the needle, letter by letter. -/
def Contains (text needle : String) : Prop :=
  ∃ before part after, text.toList = before ++ part ++ after ∧
    List.Forall₂ SameLetter part needle.toList

variable {text needle : String}

theorem holdsIgnoringCase_iff_contains :
    holdsIgnoringCase text needle = true ↔ Contains text needle := by
  rw [holdsIgnoringCase_iff, Holds, Contains]
  simp only [← List.forall₂_eq_eq_eq, List.forall₂_map_left_iff, List.forall₂_map_right_iff,
    toLower_eq_toLower_iff]

instance (text needle : String) : Decidable (Contains text needle) :=
  decidable_of_iff _ holdsIgnoringCase_iff_contains

theorem contains_iff_folded : Contains text needle ↔ foldCase needle <:+: foldCase text := by
  rw [← holdsIgnoringCase_iff_contains, holdsIgnoringCase, occursIn_iff]

/-- What is contained in a part is contained in the whole. -/
theorem Contains.trans {part : String} (h : Contains text needle) (h' : Contains needle part) :
    Contains text part := by
  rw [contains_iff_folded] at h h' ⊢
  exact h'.trans h

theorem contains_empty (text : String) : Contains text "" :=
  contains_iff_folded.mpr List.nil_infix

/-- The case of its letters makes no difference to what contains a text. -/
theorem contains_congr {needle' : String}
    (h : List.Forall₂ SameLetter needle'.toList needle.toList) :
    Contains text needle' ↔ Contains text needle := by
  rw [contains_iff_folded, contains_iff_folded, foldCase_eq_foldCase_iff.mpr h]

-- letters beyond ASCII differ from their capitals
example : Contains "naïve" "NAïVE" ∧ ¬Contains "naïve" "NAÏVE" := by decide

end Text

/-- The events of a list of steps follow one another. -/
theorem Traced.events_mapM {α β : Type} (f : α → Traced β) (as : List α) :
    (as.mapM f).events = as.flatMap fun a => (f a).events := by
  induction as with
  | nil => rfl
  | cons a as ih =>
    rw [List.mapM_cons, Traced.events_bind, Traced.events_bind, ih, Traced.events_pure,
      List.append_nil, List.flatMap_cons]

namespace Conformance

open Text

theorem select_some_eq (f : String) (cases : List Case) :
    select (some f) cases = cases.filter fun c => Contains c.description f :=
  List.filter_congr fun c _ => Bool.eq_iff_iff.mpr <| by
    rw [holdsIgnoringCase_iff_contains, decide_eq_true_iff]

/-- Every case is run as if it were alone. -/
theorem events_runAll (cases : List Case) :
    (runAll cases).events = cases.flatMap fun c => c.run.events := by
  rw [runAll, Traced.events_map, Traced.events_mapM]
  rfl

/-- What is left out of the cases is left out of the outcomes. -/
theorem outcomes_runAll_filter (p : String → Bool) (cases : List Case) :
    (runAll (cases.filter fun c => p c.description)).result.outcomes =
      (runAll cases).result.outcomes.filter fun o => p o.description := by
  rw [outcomes_runAll, outcomes_runAll, List.filter_map]
  rfl

/-- A filter selects the cases whose descriptions contain it, in order, whatever the case of its
letters.  A part of it selects at least as many, and the empty filter all.  The run of the selected
cases has the outcomes that they have in the run of all cases, and each of them has the outcome and
the events that it has when it is run alone. -/
theorem filtered_run_restricts (cases : List Case) (f : String) :
    select (some f) cases = cases.filter (fun c => Contains c.description f) ∧
    (∀ g : String, List.Forall₂ SameLetter g.toList f.toList →
      select (some g) cases = select (some f) cases) ∧
    (∀ g : String, Contains f g → (select (some f) cases).Sublist (select (some g) cases)) ∧
    select (some "") cases = cases ∧
    (runAll (select (some f) cases)).result.outcomes =
      (runAll (select none cases)).result.outcomes.filter (fun o => Contains o.description f) ∧
    (runAll (select (some f) cases)).result.outcomes =
      (select (some f) cases).map (fun c => ⟨c.description, c.run.result⟩) ∧
    (runAll (select (some f) cases)).events =
      (select (some f) cases).flatMap fun c => c.run.events := by
  refine ⟨select_some_eq f cases, ?_, ?_, ?_, ?_, outcomes_runAll _, events_runAll _⟩
  · intro g same
    rw [select_some_eq, select_some_eq]
    simp only [contains_congr same]
  · intro g part
    rw [select_some_eq, select_some_eq]
    apply List.monotone_filter_right
    intro c contains
    rw [decide_eq_true_iff] at contains ⊢
    exact contains.trans part
  · rw [select_some_eq, List.filter_eq_self]
    intro c _
    exact decide_eq_true (contains_empty c.description)
  · rw [select_some_eq]
    exact outcomes_runAll_filter (fun d => Contains d f) cases

/-- Capitals are as good as small letters, and a part of a word selects what the word selects. -/
theorem filtered_run_restricts_unions :
    List.Forall₂ SameLetter "uNION".toList "Union".toList ∧
    select (some "uNION") Conformance.cases = select (some "Union") Conformance.cases ∧
    Contains "Union" "ION" ∧
    (select (some "Union") Conformance.cases).Sublist (select (some "ION") Conformance.cases) := by
  have same : List.Forall₂ SameLetter "uNION".toList "Union".toList :=
    foldCase_eq_foldCase_iff.mp (by decide)
  have part : Contains "Union" "ION" := by decide
  obtain ⟨-, unchanged, more, -⟩ := filtered_run_restricts Conformance.cases "Union"
  exact ⟨same, unchanged "uNION" same, part, more "ION" part⟩

end Conformance

end SchemaValidation
