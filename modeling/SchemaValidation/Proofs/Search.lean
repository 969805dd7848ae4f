import SchemaValidation.Traced
import Mathlib.Data.List.Forall2

/-!
# Searches that stop

A search with `List.allM` runs its test on one element after the other and stops at the first that
fails.  A search without a failure has the events of all elements.  A search with a failure splits
its list there, and has the events of the elements before it and of the failure itself.

A search depends on its list only through what the test does on each element, in whatever monad
(`allM_congr`, `anyM_congr`).
-/

namespace SchemaValidation

section Congruence

variable {m : Type → Type} [Monad m] {α β : Type} {p : α → m Bool} {q : β → m Bool}
  {as : List α} {bs : List β}

/-- Tests that do the same on elements at the same place make for the same search. -/
theorem allM_congr (h : List.Forall₂ (fun a b => p a = q b) as bs) : as.allM p = bs.allM q := by
  induction h with
  | nil => rfl
  | cons first _ ih => rw [List.allM_cons, List.allM_cons, first, ih]

theorem anyM_congr (h : List.Forall₂ (fun a b => p a = q b) as bs) : as.anyM p = bs.anyM q := by
  induction h with
  | nil => rfl
  | cons first _ ih => rw [List.anyM_cons, List.anyM_cons, first, ih]

theorem allM_map (f : β → α) (bs : List β) : (bs.map f).allM p = bs.allM fun b => p (f b) :=
  allM_congr (List.forall₂_map_left_iff.mpr (List.forall₂_same.mpr fun _ _ => rfl))

theorem anyM_map (f : β → α) (bs : List β) : (bs.map f).anyM p = bs.anyM fun b => p (f b) :=
  anyM_congr (List.forall₂_map_left_iff.mpr (List.forall₂_same.mpr fun _ _ => rfl))

/-- Counting the elements does not change a search. -/
theorem allM_zipIdx (as : List α) : (as.zipIdx.allM fun a => p a.1) = as.allM p := by
  rw [← allM_map Prod.fst, List.zipIdx_map_fst]

theorem anyM_zipIdx (as : List α) : (as.zipIdx.anyM fun a => p a.1) = as.anyM p := by
  rw [← anyM_map Prod.fst, List.zipIdx_map_fst]

/-- The second half of a list is searched if the first half has no failure. -/
theorem allM_append [LawfulMonad m] (p : α → m Bool) (as as' : List α) :
    (as ++ as').allM p = do if ← as.allM p then as'.allM p else return false := by
  induction as with
  | nil => simp
  | cons a as ih =>
    rw [List.cons_append, List.allM_cons, List.allM_cons, ih, bind_assoc]
    apply bind_congr
    intro passed
    cases passed <;> simp

end Congruence

/-- The elements of a list are counted in order. -/
theorem pairwise_zipIdx {α : Type} (as : List α) :
    as.zipIdx.Pairwise fun a b => a.2 < b.2 := by
  rw [← List.pairwise_map (f := Prod.snd) (R := (· < ·)), List.zipIdx_map_snd]
  exact List.pairwise_lt_range'

/-- Counting the elements does not change what is collected from them. -/
theorem flatMap_zipIdx {α β : Type} (f : α → List β) (as : List α) (start : Nat) :
    ((as.zipIdx start).flatMap fun a => f a.1) = as.flatMap f := by
  calc (as.zipIdx start).flatMap (fun a => f a.1)
      = ((as.zipIdx start).map Prod.fst).flatMap f := by rw [List.flatMap_map]
    _ = as.flatMap f := by rw [List.zipIdx_map_fst]

/-- Where some element fails a test, the list splits at the first that does. -/
theorem exists_first {α : Type} {test : α → Bool} {as : List α} (h : as.all test = false) :
    ∃ before a after, as = before ++ a :: after ∧ (∀ b ∈ before, test b = true) ∧
      test a = false := by
  obtain ⟨c, hc, fails⟩ := List.all_eq_false.mp h
  have found : (as.find? fun a => !test a).isSome := by
    rw [List.find?_isSome]
    exact ⟨c, hc, by simpa using fails⟩
  obtain ⟨a, ha⟩ := Option.isSome_iff_exists.mp found
  obtain ⟨fails, before, after, eq, passed⟩ := List.find?_eq_some_iff_append.mp ha
  exact ⟨before, a, after, eq, fun b hb => by simpa using passed b hb, by simpa using fails⟩

namespace Traced

theorem both_of_fails {x : Traced Bool} (h : x.result = false) (y : Traced Bool) : both x y = x :=
  Traced.ext (by simp [h]) (by simp [h])

theorem either_of_holds {x : Traced Bool} (h : x.result = true) (y : Traced Bool) :
    either x y = x :=
  Traced.ext (by simp [h]) (by simp [h])

variable {α : Type} (p : α → Traced Bool)

theorem allM_append (as as' : List α) :
    (as ++ as').allM p = both (as.allM p) (as'.allM p) :=
  SchemaValidation.allM_append p as as'

/-- Where no element fails, the search visits all. -/
theorem events_allM {as : List α} (h : ∀ a ∈ as, (p a).result = true) :
    (as.allM p).events = as.flatMap fun a => (p a).events := by
  induction as with
  | nil => rfl
  | cons a as ih =>
    rw [allM_cons, events_both, if_pos (h a List.mem_cons_self), List.flatMap_cons,
      ih fun b hb => h b (List.mem_cons_of_mem a hb)]

/-- The elements after a failure do not count. -/
theorem events_allM_append {before : List α} {a : α} (after : List α)
    (h : ∀ b ∈ before, (p b).result = true) (ha : (p a).result = false) :
    ((before ++ a :: after).allM p).events =
      (before.flatMap fun b => (p b).events) ++ (p a).events := by
  have held : (before.allM p).result = true := by
    rw [result_allM, List.all_eq_true]
    exact h
  rw [allM_append, events_both, if_pos held, events_allM p h, allM_cons, both_of_fails ha]

variable {p}

/-- A search for a failure depends on what its test does up to one. -/
theorem allM_congr_of_fails {q : α → Traced Bool} {before : List α} {a : α}
    (h : ∀ b ∈ before, p b = q b) (ha : p a = q a) (fails : (p a).result = false)
    (after after' : List α) : (before ++ a :: after).allM p = (before ++ a :: after').allM q := by
  have fails' : (q a).result = false := ha ▸ fails
  have same : before.allM p = before.allM q := allM_congr (List.forall₂_same.mpr h)
  rw [allM_append, allM_append, allM_cons, allM_cons, both_of_fails fails, both_of_fails fails', ha,
    same]

/-- A search for a success depends on what comes up to one. -/
theorem anyM_congr_of_holds {before : List α} {a : α} (holds : (p a).result = true)
    (after after' : List α) : (before ++ a :: after).anyM p = (before ++ a :: after').anyM p := by
  induction before with
  | nil =>
    rw [List.nil_append, List.nil_append, anyM_cons, anyM_cons, either_of_holds holds,
      either_of_holds holds]
  | cons b before ih => rw [List.cons_append, List.cons_append, anyM_cons, anyM_cons, ih]

end Traced

end SchemaValidation
