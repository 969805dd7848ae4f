import SchemaValidation.Predicate
import SchemaValidation.Proofs.Record

/-!
# Refining a schema

Refinements that are added to a schema have their turn after everything that the schema did before.
If it has rejected the value by then, or left it to the flag, they are not called at all.  Otherwise
they are called one after the other up to the first that does not hold, and that one is reported by
its number among all refinements of the node.

The run of the refined schema therefore has the entries of the schema's own run and a closing after
them (`Schema.entries_of_held`, `Schema.entries_of_refused`).  Events are read off the entries.
-/

namespace SchemaValidation

/-- Where a run goes on with a closing, so do its events. -/
theorem Run.events_of_closing {run run' : Run} {trials : List Trial} {reports : List Event}
    (h : run'.entries = run.entries ++ Entry.closing trials reports) :
    run'.events = run.events ++ trials.flatMap (fun trial => trial.answer.events) ++ reports := by
  rw [Run.events, Run.events, Run.trace_eq, Run.trace_eq, h, List.flatMap_append,
    Entry.flatMap_traceOf_closing, List.append_assoc]

namespace Schema

/-- Predicates called with a value, in order, as refinements with the numbers from `start`. -/
def trialsFrom (start : Nat) (ps : List Predicate) (v : Value) : List Trial :=
  (ps.zipIdx start).map fun (p, index) => ⟨index, v, p v⟩

theorem trials_append (rs ps : List Predicate) (v : Value) :
    trials (rs ++ ps) v = trials rs v ++ trialsFrom rs.length ps v := by
  rw [trials, List.zipIdx_append, List.map_append, Nat.zero_add]
  rfl

theorem flatMap_events_trialsFrom (start : Nat) (ps : List Predicate) (v : Value) :
    (trialsFrom start ps v).flatMap (fun trial => trial.answer.events) =
      ps.flatMap fun p => (p v).events := by
  rw [trialsFrom, List.flatMap_map]
  exact flatMap_zipIdx (fun p => (p v).events) ps start

/-- One call after the other appends to the refinements. -/
theorem foldl_which (kind : Kind Schema) (required : Bool) (rs ps : List Predicate) :
    ps.foldl which ⟨kind, required, rs⟩ = ⟨kind, required, rs ++ ps⟩ := by
  induction ps generalizing rs with
  | nil => rw [List.append_nil, List.foldl_nil]
  | cons p rest ih =>
    rw [List.foldl_cons, which, ih, List.append_assoc, List.singleton_append]

variable {kind : Kind Schema} {required : Bool} {rs ps : List Predicate} {v : Value}

/-! ## The run of a refined schema -/

/-- Of a value that is not settled the refined schema asks that the added refinements hold, too. -/
theorem accepts_append_iff (unsettled : ¬Settles ⟨kind, required, rs⟩ v) :
    accepts ⟨kind, required, rs ++ ps⟩ v = true ↔
      accepts ⟨kind, required, rs⟩ v = true ∧ ∀ p ∈ ps, (p v).result = true := by
  have unsettled' : ¬Settles ⟨kind, required, rs ++ ps⟩ v := unsettled
  rw [accepts_of_not_settles unsettled, accepts_of_not_settles unsettled', List.forall_mem_append,
    and_assoc]

/-- Where the schema has made its decision before, they are not asked. -/
theorem accepts_of_idle
    (idle : Settles ⟨kind, required, rs⟩ v ∨ accepts ⟨kind, required, rs⟩ v = false) :
    accepts ⟨kind, required, rs ++ ps⟩ v = accepts ⟨kind, required, rs⟩ v := by
  by_cases settles : Settles ⟨kind, required, rs⟩ v
  · have settles' : Settles ⟨kind, required, rs ++ ps⟩ v := settles
    rw [accepts, accepts, validate_of_settles settles, validate_of_settles settles']
  · have rejected := idle.resolve_left settles
    rw [rejected, ← Bool.not_eq_true, accepts_append_iff settles]
    rintro ⟨accepted, -⟩
    rw [rejected] at accepted
    cases accepted

/-- Up to the refinements, the run does not depend on them. -/
theorem entries_record_node (unsettled : ¬Settles ⟨kind, required, rs⟩ v) :
    (record ⟨kind, required, rs⟩ v).entries = Visit.turns ⟨⟨kind, required, []⟩, v⟩ ++
      if (fits kind required v).result then (recordRefinements kind.name rs v).entries
      else [.report (.typeRejected kind.name v.typeName)] :=
  Visit.entries_record_of_not_settles (x := ⟨_, v⟩) unsettled

/-- A refinement that does not hold ends the search. -/
theorem entries_recordRefinements_of_fails (h : (rs.all fun p => (p v).result) = false) :
    (recordRefinements kind.name (rs ++ ps) v).entries =
      (recordRefinements kind.name rs v).entries := by
  obtain ⟨before, p, after, rfl, held, failed⟩ := exists_first h
  rw [List.append_assoc, List.cons_append, entries_recordRefinements_append held failed,
    entries_recordRefinements_append held failed]

/-- Nor are they called there. -/
theorem entries_of_idle
    (idle : Settles ⟨kind, required, rs⟩ v ∨ accepts ⟨kind, required, rs⟩ v = false) :
    (record ⟨kind, required, rs ++ ps⟩ v).entries = (record ⟨kind, required, rs⟩ v).entries := by
  by_cases settles : Settles ⟨kind, required, rs⟩ v
  · have settles' : Settles ⟨kind, required, rs ++ ps⟩ v := settles
    exact (Visit.entries_record_of_settles (x := ⟨_, v⟩) settles').trans
      (Visit.entries_record_of_settles (x := ⟨_, v⟩) settles).symm
  · have settles' : ¬Settles ⟨kind, required, rs ++ ps⟩ v := settles
    have rejected : ((fits kind required v).result && rs.all fun p => (p v).result) = false := by
      rw [← idle.resolve_left settles]
      exact (Visit.accepted_eq (x := ⟨_, v⟩) settles).symm
    rw [entries_record_node settles, entries_record_node settles']
    split
    next fits =>
      rw [fits, Bool.true_and] at rejected
      rw [entries_recordRefinements_of_fails rejected]
    · rfl

/-- An accepted value has been shown to all refinements. -/
theorem entries_of_accepted (unsettled : ¬Settles ⟨kind, required, rs⟩ v)
    (accepted : accepts ⟨kind, required, rs⟩ v = true) :
    (fits kind required v).result = true ∧ (∀ p ∈ rs, (p v).result = true) ∧
      (record ⟨kind, required, rs⟩ v).entries =
        Visit.turns ⟨⟨kind, required, []⟩, v⟩ ++ (trials rs v).map .trial := by
  obtain ⟨admitted, held⟩ := (accepts_of_not_settles unsettled).mp accepted
  have fits : (fits kind required v).result = true := fits_iff.mpr admitted
  refine ⟨fits, held, ?_⟩
  rw [entries_record_node unsettled, if_pos fits, entries_recordRefinements held]

/-- Where they hold, the added refinements are called, and that is all. -/
theorem entries_of_held (unsettled : ¬Settles ⟨kind, required, rs⟩ v)
    (accepted : accepts ⟨kind, required, rs⟩ v = true) (held : ∀ p ∈ ps, (p v).result = true) :
    (record ⟨kind, required, rs ++ ps⟩ v).entries =
      (record ⟨kind, required, rs⟩ v).entries ++ Entry.closing (trialsFrom rs.length ps v) [] := by
  have unsettled' : ¬Settles ⟨kind, required, rs ++ ps⟩ v := unsettled
  have accepted' := (accepts_append_iff unsettled).mpr ⟨accepted, held⟩
  rw [(entries_of_accepted unsettled accepted).2.2, (entries_of_accepted unsettled' accepted').2.2,
    trials_append, List.map_append, Entry.closing, List.map_nil, List.append_nil,
    List.append_assoc]

/-- The first of them that does not hold is the last to be called, and is reported. -/
theorem entries_of_refused {before after : List Predicate} {p : Predicate}
    (unsettled : ¬Settles ⟨kind, required, rs⟩ v)
    (accepted : accepts ⟨kind, required, rs⟩ v = true)
    (held : ∀ q ∈ before, (q v).result = true) (failed : (p v).result = false) :
    (record ⟨kind, required, rs ++ (before ++ p :: after)⟩ v).entries =
      (record ⟨kind, required, rs⟩ v).entries ++
        Entry.closing (trialsFrom rs.length (before ++ [p]) v)
          [.refinementRejected kind.name (rs.length + before.length)] := by
  obtain ⟨fits, own, entries⟩ := entries_of_accepted unsettled accepted
  have unsettled' : ¬Settles ⟨kind, required, rs ++ (before ++ p :: after)⟩ v := unsettled
  rw [entries, entries_record_node unsettled', if_pos fits, ← List.append_assoc rs,
    entries_recordRefinements_append (List.forall_mem_append.mpr ⟨own, held⟩) failed,
    List.append_assoc rs, trials_append, List.map_append, List.length_append, Entry.closing,
    List.append_assoc, List.append_assoc]
  rfl

/-! ## The law of refining -/

/-- Refinements added to a schema are not called where it settles or rejects the value, and then
nothing changes.  Otherwise they are called in order and once each, up to the first that does not
hold.  The value is accepted if there is none, and what else happens is only that it is reported. -/
theorem validate_foldl_which (s : Schema) (ps : List Predicate) (v : Value) :
    (∀ t : Schema, (t.record v).outcome = t.validate v) ∧
      (s.Settles v ∨ (s.validate v).result = false →
        (ps.foldl which s).validate v = s.validate v ∧
          ((ps.foldl which s).record v).entries = (s.record v).entries) ∧
      (¬s.Settles v → (s.validate v).result = true →
        (((ps.foldl which s).validate v).result = true ↔ ∀ p ∈ ps, (p v).result = true) ∧
          ((∀ p ∈ ps, (p v).result = true) →
            ((ps.foldl which s).validate v).events =
                (s.validate v).events ++ ps.flatMap (fun p => (p v).events) ∧
              ((ps.foldl which s).record v).entries = (s.record v).entries ++
                Entry.closing (trialsFrom s.refinements.length ps v) []) ∧
          ∀ before p after, ps = before ++ p :: after → (∀ q ∈ before, (q v).result = true) →
            (p v).result = false →
              ((ps.foldl which s).validate v).events =
                  (s.validate v).events ++ (before ++ [p]).flatMap (fun q => (q v).events) ++
                    [.refinementRejected s.kind.name (s.refinements.length + before.length)] ∧
                ((ps.foldl which s).record v).entries = (s.record v).entries ++
                  Entry.closing (trialsFrom s.refinements.length (before ++ [p]) v)
                    [.refinementRejected s.kind.name
                      (s.refinements.length + before.length)]) := by
  have outcome (t : Schema) : (t.record v).outcome = t.validate v := Visit.outcome_record ⟨t, v⟩
  have events (t : Schema) : (t.validate v).events = (t.record v).events := by
    rw [← outcome t]
    rfl
  obtain ⟨kind, required, rs⟩ := s
  rw [foldl_which]
  refine ⟨outcome, ?_, ?_⟩
  · intro idle
    have entries : (record ⟨kind, required, rs ++ ps⟩ v).entries = _ := entries_of_idle idle
    refine ⟨?_, entries⟩
    apply Traced.ext
    · exact accepts_of_idle idle
    · rw [events, events, Run.events, Run.events, Run.trace_eq, Run.trace_eq, entries]
  · intro unsettled accepted
    refine ⟨?_, ?_, ?_⟩
    · exact (accepts_append_iff unsettled).trans (and_iff_right accepted)
    · intro held
      have entries := entries_of_held unsettled accepted held
      refine ⟨?_, entries⟩
      rw [events, events, Run.events_of_closing entries, flatMap_events_trialsFrom,
        List.append_nil]
    · rintro before p after rfl held failed
      have entries : (record ⟨kind, required, rs ++ (before ++ p :: after)⟩ v).entries = _ :=
        entries_of_refused unsettled accepted held failed
      refine ⟨?_, entries⟩
      rw [events, events, Run.events_of_closing entries, flatMap_events_trialsFrom]

/-- Null is no string, and leaves the added refinements alone.  Of a string the first makes a note,
and the second is reported by its number after the one that was there before. -/
theorem validate_foldl_which_string :
    (([.noting "asked" (.string (· ≠ "b")), .string (· = "b")].foldl which
        (blank.string.which (.string (· ≠ "")))).validate .null =
      (blank.string.which (.string (· ≠ ""))).validate .null) ∧
    ¬(blank.string.which (.string (· ≠ ""))).Settles (.string "a") ∧
    ((blank.string.which (.string (· ≠ ""))).validate (.string "a")).result = true ∧
    (([.noting "asked" (.string (· ≠ "b")), .string (· = "b")].foldl which
        (blank.string.which (.string (· ≠ "")))).validate (.string "a")).events =
      ((blank.string.which (.string (· ≠ ""))).validate (.string "a")).events ++
        [.noted "asked" .string] ++ [.refinementRejected .string (1 + 1)] := by
  have rejected : ((blank.string.which (.string (· ≠ ""))).validate .null).result = false := rfl
  have unsettled : ¬(blank.string.which (.string (· ≠ ""))).Settles (.string "a") :=
    not_settles_of_ne_absent nofun
  have accepted : ((blank.string.which (.string (· ≠ ""))).validate (.string "a")).result = true :=
    by decide
  have law := validate_foldl_which (blank.string.which (.string (· ≠ "")))
    [.noting "asked" (.string (· ≠ "b")), .string (· = "b")]
  have refused := ((law (.string "a")).2.2 unsettled accepted).2.2
    [.noting "asked" (.string (· ≠ "b"))] (.string (· = "b")) [] rfl
    (List.forall_mem_singleton.mpr (by decide)) (by decide)
  exact ⟨((law .null).2.1 (.inr rejected)).1, unsettled, accepted, refused.1⟩

end Schema

end SchemaValidation
