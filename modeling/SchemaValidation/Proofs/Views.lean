import SchemaValidation.Proofs.ByteOrder
import SchemaValidation.Proofs.Session

/-!
# Views of a registry

The names of a registry, its size and what is found under a name are read off separately, and agree.

The list of names is sorted.  It depends on which names are bound and on nothing else: a table that
keeps its keys in no particular order, such as a hash table, gives the same list once they are
sorted (`Registry.Enumerates.mergeSort_eq`).
-/

namespace SchemaValidation

namespace Registry

variable {config : Config} {r : Registry} {name : String} {s : Schema} {history : List Exchange}
  {keys : List String}

theorem mem_names_iff : name ∈ r.names ↔ r.contains name = true := by
  rw [← mem_bound_iff, bound, List.mem_toFinset]

theorem length_names (r : Registry) : r.names.length = r.size := Std.ExtTreeMap.length_keys

theorem isEmpty_iff : r.isEmpty = true ↔ r.size = 0 := by
  rw [isEmpty, Std.ExtTreeMap.isEmpty_eq_size_beq_zero, beq_iff_eq]
  rfl

/-- The bytes of the names increase strictly. -/
theorem pairwise_utf8_names (r : Registry) : (r.names.map utf8).Pairwise (· < ·) :=
  pairwise_map_utf8_iff.mpr r.pairwise_names

/-- The names that are bound, each once, in whatever order a table may go through them. -/
structure Enumerates (r : Registry) (keys : List String) : Prop where
  nodup : keys.Nodup
  mem_iff : ∀ name, name ∈ keys ↔ r.contains name = true

theorem Enumerates.perm (h : r.Enumerates keys) : keys.Perm r.names := by
  refine (List.perm_ext_iff_of_nodup h.nodup r.nodup_names).mpr fun name => ?_
  rw [h.mem_iff name, mem_names_iff]

/-- There is one way to put the names in order, however they come. -/
theorem Enumerates.eq_names (h : r.Enumerates keys) {sorted : List String}
    (perm : sorted.Perm keys) (order : (sorted.map utf8).Pairwise (· ≤ ·)) : sorted = r.names := by
  refine (perm.trans h.perm).eq_of_pairwise (fun _ _ _ _ => String.le_antisymm) ?_ ?_
  · exact (List.pairwise_map.mp order).imp utf8_le_iff.mp
  · exact r.pairwise_names.imp Std.le_of_lt

theorem Enumerates.mergeSort_eq (h : r.Enumerates keys) : keys.mergeSort = r.names := by
  refine h.eq_names (List.mergeSort_perm _ _) (List.pairwise_map.mpr ?_)
  refine (List.pairwise_mergeSort (fun a b c ab bc => ?_) (fun a b => ?_) _).imp fun le =>
    utf8_le_iff.mpr (of_decide_eq_true le)
  · exact decide_eq_true (String.le_trans (of_decide_eq_true ab) (of_decide_eq_true bc))
  · rw [Bool.or_eq_true, decide_eq_true_iff, decide_eq_true_iff]
    exact String.le_total a b

/-- Registries that bind the same names list them alike. -/
theorem names_congr {r' : Registry} (same : ∀ name, r.contains name = r'.contains name) :
    r.names = r'.names := by
  have listed : r'.Enumerates r.names :=
    ⟨r.nodup_names, fun name => by rw [mem_names_iff, same name]⟩
  exact listed.eq_names (.refl _) (r.pairwise_utf8_names.imp List.le_of_lt)

/-- What is shown of the registry of a session agrees.  Its names are in strictly increasing order of
bytes; they are the names that are known, those that a schema is found under, and those that were
registered; and there are as many of them as the size says.  They are what any listing of the bound
names becomes when it is sorted.  So any two sessions that bind the same names show the same list,
however their tables go through them. -/
theorem Session.views_agree (session : Session config history r) :
    (r.names.map utf8).Pairwise (· < ·) ∧ r.names.Nodup ∧
    (∀ name, (r.contains name = true ↔ name ∈ r.names) ∧
      ((∃ s, r.get? name = some s) ↔ name ∈ r.names) ∧
      (name ∈ entryNames (registrations history) ↔ name ∈ r.names)) ∧
    r.size = r.names.length ∧ (r.isEmpty = true ↔ r.size = 0) ∧
    (∀ keys, r.Enumerates keys → keys.mergeSort = r.names ∧
      ∀ sorted, sorted.Perm keys → (sorted.map utf8).Pairwise (· ≤ ·) → sorted = r.names) ∧
    (∀ config' history' r', Session config' history' r' →
      (∀ name, r.contains name = r'.contains name) → r.names = r'.names ∧
      ∀ keys keys', r.Enumerates keys → r'.Enumerates keys' → keys.mergeSort = keys'.mergeSort) := by
  refine ⟨r.pairwise_utf8_names, r.nodup_names, fun name => ⟨mem_names_iff.symm, ?_, ?_⟩,
    r.length_names.symm, isEmpty_iff, fun keys listed => ⟨listed.mergeSort_eq, ?_⟩, ?_⟩
  · rw [mem_names_iff, ← mem_bound_iff, mem_bound_iff_exists]
  · rw [mem_names_iff, session.contains_iff]
  · exact fun sorted => listed.eq_names
  · intro config' history' r' session' same
    have names_eq := names_congr same
    refine ⟨names_eq, fun keys keys' listed listed' => ?_⟩
    rw [listed.mergeSort_eq, listed'.mergeSort_eq, names_eq]

/-- Two names registered in either order, and one of them once more. -/
theorem Session.views_agree_swapped : ∃ history r history' r',
    Session ⟨false, false, true, 2⟩ history r ∧ Session ⟨false, false, false, 2⟩ history' r' ∧
    r.names = ["a", "b"] ∧ r.names = r'.names ∧ r.Enumerates ["b", "a"] ∧
    ["b", "a"].mergeSort = r.names := by
  obtain ⟨history, r, session, names⟩ : ∃ history r,
      Session ⟨false, false, true, 2⟩ history r ∧ r.names = ["a", "b"] :=
    ⟨_, _, ((Session.start.call (.register "b" (.string .blank))).call
      (.register "a" (.string .blank))).call (.register "b" (.number .blank)), rfl⟩
  obtain ⟨history', r', session', names'⟩ : ∃ history r,
      Session ⟨false, false, false, 2⟩ history r ∧ r.names = ["a", "b"] :=
    ⟨_, _, (Session.start.call (.register "a" (.string .blank))).call
      (.register "b" (.boolean .blank)), rfl⟩
  have same (name : String) : r.contains name = r'.contains name := by
    rw [Bool.eq_iff_iff, ← mem_names_iff, ← mem_names_iff, names, names']
  have listed : r.Enumerates ["b", "a"] := by
    refine ⟨by decide, fun name => ?_⟩
    rw [← mem_names_iff, names]
    simp [or_comm]
  obtain ⟨-, -, -, -, -, sorts, alike⟩ := session.views_agree
  exact ⟨history, r, history', r', session, session', names, (alike _ _ _ session' same).1, listed,
    (sorts _ listed).1⟩

end Registry

end SchemaValidation
