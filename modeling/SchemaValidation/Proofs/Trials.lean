import SchemaValidation.Predicate
import SchemaValidation.Proofs.Record

/-!
# Trials of refinements

What a refinement may count on when it is called: the value has passed the type check of the node,
and the refinements before it were called on the same value and held.  The types that a kind lets
through to its refinements are `Kind.Shows`.

A predicate sees the absent value in three places only: at an optional array, at an optional union,
and at a union with an alternative that accepts absence, which may well be required itself.
-/

namespace SchemaValidation

/-- The values that a kind lets through to the refinements of its node, given what its children
accept. -/
def Kind.Shows {σ : Type} (accepts : σ → Value → Prop) (required : Bool) : Kind σ → Value → Prop
  | .unset, _ => False
  | .string, v => v.typeName = .string
  | .number, v => v.typeName = .number
  | .boolean, v => v.typeName = .boolean
  | .object _, v => v.typeName = .object ∨ v.typeName = .array ∨ v.typeName = .null
  | .array _, v => v.typeName = .array ∨ (v = .absent ∧ required = false)
  | .union alternatives, v =>
    (v = .absent ∧ required = false) ∨ ∃ alternative ∈ alternatives, accepts alternative v

/-- What a kind admits, it shows. -/
theorem Kind.Admits.shows {σ : Type} {accepts : σ → Value → Prop} {required : Bool} {k : Kind σ}
    {v : Value} (h : k.Admits accepts required v) : k.Shows accepts required v := by
  cases k with
  | unset | string | number | boolean => exact h
  | object properties =>
    rcases h with ⟨object | array, -⟩ | ⟨rfl, -⟩
    · exact .inl object
    · exact .inr (.inl array)
    · exact .inr (.inr rfl)
  | array element =>
    rcases h with ⟨items, rfl, -⟩ | ⟨optional, absent⟩
    · exact .inl rfl
    · exact .inr ⟨absent, optional⟩
  | union alternatives =>
    rcases h with ⟨optional, absent⟩ | accepted
    · exact .inl ⟨absent, optional⟩
    · exact .inr accepted

/-- Where the absent value is shown. -/
theorem Kind.Shows.absent {σ : Type} {accepts : σ → Value → Prop} {required : Bool} {k : Kind σ}
    (h : k.Shows accepts required .absent) :
    ((k.name = .array ∨ k.name = .union) ∧ required = false) ∨
      ∃ alternatives, k = .union alternatives ∧
        ∃ alternative ∈ alternatives, accepts alternative .absent := by
  cases k with
  | unset => exact h.elim
  | string | number | boolean => cases h
  | object properties => rcases h with h | h | h <;> cases h
  | array element =>
    rcases h with array | ⟨-, optional⟩
    · cases array
    · exact .inl ⟨.inl rfl, optional⟩
  | union alternatives =>
    rcases h with ⟨-, optional⟩ | accepted
    · exact .inl ⟨.inr rfl, optional⟩
    · exact .inr ⟨alternatives, rfl, accepted⟩

/-- A trial splits the refinements at the one that is tried. -/
theorem Schema.trials_eq_append_cons {ps : List Predicate} {v : Value} {earlier later : List Trial}
    {trial : Trial} (h : trials ps v = earlier ++ trial :: later) :
    ∃ before p after, ps = before ++ p :: after ∧ earlier = trials before v ∧
      trial = ⟨before.length, v, p v⟩ := by
  obtain ⟨_, _, split, rfl, rest⟩ := List.map_eq_append_iff.mp h
  obtain ⟨before, rest', rfl, rfl, rfl⟩ := List.zipIdx_eq_append_iff.mp split
  obtain ⟨_, _, eq, rfl, -⟩ := List.map_eq_cons_iff.mp rest
  obtain ⟨p, after, rfl, rfl, -⟩ := List.zipIdx_eq_cons_iff.mp eq
  refine ⟨before, p, after, rfl, rfl, ?_⟩
  rw [Nat.zero_add]

namespace Visit

/-- Refinements are tried after a type check that held, in order, and none after one that failed. -/
theorem Closes.of_trial {x : Visit} {trials earlier later : List Trial} {reports : List Event}
    {trial : Trial} (h : x.Closes trials reports) (split : trials = earlier ++ trial :: later) :
    ¬x.node.Settles x.value ∧
      (Schema.fits x.node.kind x.node.required x.value).result = true ∧
      ∃ before p after, x.node.refinements = before ++ p :: after ∧
        earlier = Schema.trials before x.value ∧ trial = ⟨before.length, x.value, p x.value⟩ ∧
        ∀ q ∈ before, (q x.value).result = true := by
  cases h with
  | settled | type => simp at split
  | held unsettled fits held =>
    obtain ⟨before, p, after, eq, earlier, trial⟩ := Schema.trials_eq_append_cons split
    refine ⟨unsettled, fits, before, p, after, eq, earlier, trial, fun q hq => held q ?_⟩
    rw [eq]
    exact List.mem_append_left _ hq
  | @refused before' after' p' unsettled fits eq' held failed =>
    obtain ⟨before, p, after, eq, earlier, trial⟩ := Schema.trials_eq_append_cons split
    have eq'' : x.node.refinements = before ++ p :: (after ++ after') := by
      rw [eq', List.append_cons, eq, List.append_assoc, List.cons_append]
    refine ⟨unsettled, fits, before, p, _, eq'', earlier, trial, fun q hq => held q ?_⟩
    -- the last trial is the one that failed, so those before this one are before it as well
    have dropped : before' = before ++ (p :: after).dropLast := by
      rw [← List.dropLast_append_of_ne_nil (List.cons_ne_nil p after), ← eq, List.dropLast_concat]
    rw [dropped]
    exact List.mem_append_left _ hq

end Visit

/-- Whenever an evaluation calls a refinement, at whatever depth, it calls it on a value that the
kind of the node shows, after the refinements before it have been called on the same value, in
order, and held.  It shows the absent value only at optional arrays, at optional unions and at
unions with an alternative that accepts it. -/
theorem Schema.shows_of_mem_trials (s : Schema) (v : Value) :
    (s.record v).outcome = s.validate v ∧
      ∀ place run n w, (place, run) ∈ (s.record v).visits → run.visit = ⟨n, w⟩ →
        ∀ earlier trial later, run.trials = earlier ++ trial :: later →
          (∃ before p after, n.refinements = before ++ p :: after ∧
            trial = ⟨before.length, w, p w⟩ ∧ earlier = trials before w ∧
            ∀ q ∈ before, (q w).result = true) ∧
          n.kind.Shows (fun child u => child.accepts u = true) n.required w ∧
          (w = .absent →
            ((n.kind.name = .array ∨ n.kind.name = .union) ∧ n.required = false) ∨
              ∃ alternatives, n.kind = .union alternatives ∧
                ∃ alternative ∈ alternatives, alternative.accepts .absent = true) := by
  refine ⟨Visit.outcome_record ⟨s, v⟩, fun place run n w mem visit earlier trial later split => ?_⟩
  have recorded : run = (Visit.mk n w).record := by
    rw [← visit]
    exact Visit.eq_record_of_mem_visits (x := ⟨s, v⟩) mem
  rw [recorded] at split
  obtain ⟨-, fits, before, p, after, eq, earlier, trial, held⟩ :=
    (Visit.mk n w).closes.of_trial split
  have shown := (fits_iff.mp fits).shows
  refine ⟨⟨before, p, after, eq, trial, earlier, held⟩, shown, ?_⟩
  rintro rfl
  exact shown.absent

/-- A required union shows the absent value to its second refinement too, because an alternative is
optional. -/
theorem Schema.shows_absent_oneOf :
    (Visit.mk ⟨.union [blank.string.optional], true,
        [Predicate.test Value.isAbsent, Predicate.test fun v => !v.isAbsent]⟩ .absent).record.trials =
      [⟨0, .absent, Predicate.test Value.isAbsent .absent⟩] ++
        [⟨1, .absent, Predicate.test (fun v => !v.isAbsent) .absent⟩] ∧
    (Kind.union [blank.string.optional]).Shows (fun child u => child.accepts u = true) true .absent ∧
    ((((Kind.union [blank.string.optional]).name = .array ∨
        (Kind.union [blank.string.optional]).name = .union) ∧ true = false) ∨
      ∃ alternatives, Kind.union [blank.string.optional] = .union alternatives ∧
        ∃ alternative ∈ alternatives, alternative.accepts .absent = true) := by
  have law := (shows_of_mem_trials ⟨.union [blank.string.optional], true,
    [Predicate.test Value.isAbsent, Predicate.test fun v => !v.isAbsent]⟩ .absent).2
  have tried := law [] _ _ _ (Visit.mem_visits_record ⟨_, _⟩) rfl [_] _ [] rfl
  exact ⟨rfl, tried.2.1, tried.2.2 rfl⟩

end SchemaValidation
