import SchemaValidation.Proofs.Visit

/-!
# Recorded runs

Events alone do not tell which visits an evaluation made, nor which of the events are its own and
which come from a predicate.  A `Run` does: it keeps what happened during a visit, in order, with
the runs of the visits below it.

`Recorded` is the monad that keeps such entries, as `Traced` keeps events.  Forgetting all but the
events, `Recorded.erase`, commutes with every operation, searches included.
-/

namespace SchemaValidation

/-- Refinement number `index` of a node is called with a value, and answers. -/
structure Trial where
  index : Nat
  value : Value
  answer : Traced Bool

/-- What happens during a visit.  The visits to parts are kept as `ρ`. -/
inductive Entry (ρ : Type) where
  | part (turn : Turn) (run : ρ)
  | trial (trial : Trial)
  /-- The evaluator itself reports an event. -/
  | report (event : Event)

namespace Entry

variable {ρ : Type}

def report? : Entry ρ → Option Event
  | .report event => some event
  | _ => none

def trial? : Entry ρ → Option Trial
  | .trial t => some t
  | _ => none

end Entry

/-- A visit, what happened during it, in order, and its verdict. -/
structure Run where
  visit : Visit
  entries : List (Entry Run)
  verdict : Bool

namespace Run

mutual

/-- The events during a run in order; of a trial, those that are heard. -/
def trace (heard : Trial → List Event) : Run → List Event
  | ⟨_, entries, _⟩ => traceIn heard entries
termination_by structural run => run

def traceIn (heard : Trial → List Event) : List (Entry Run) → List Event
  | [] => []
  | entry :: rest => traceOf heard entry ++ traceIn heard rest
termination_by structural entries => entries

def traceOf (heard : Trial → List Event) : Entry Run → List Event
  | .part _ run => run.trace heard
  | .trial trial => heard trial
  | .report event => [event]
termination_by structural entry => entry

end

mutual

/-- The visits of a run, each with its place, in the order in which they end. -/
def visits : Run → List (Place × Run)
  | ⟨visit, entries, verdict⟩ => visitsIn entries ++ [([], ⟨visit, entries, verdict⟩)]
termination_by structural run => run

def visitsIn : List (Entry Run) → List (Place × Run)
  | [] => []
  | entry :: rest => visitsOf entry ++ visitsIn rest
termination_by structural entries => entries

def visitsOf : Entry Run → List (Place × Run)
  | .part turn run => run.visits.map (Prod.map (turn :: ·) id)
  | .trial _ => []
  | .report _ => []
termination_by structural entry => entry

end

/-- All events during a run. -/
def events (run : Run) : List Event := run.trace fun trial => trial.answer.events

/-- The events that the evaluator itself reports during a run. -/
def reports (run : Run) : List Event := run.trace fun _ => []

def outcome (run : Run) : Traced Bool := ⟨run.verdict, run.events⟩

/-- The events that the evaluator reports at the visit itself. -/
def own (run : Run) : List Event := run.entries.filterMap Entry.report?

/-- The trials of refinements at the visit itself, in order. -/
def trials (run : Run) : List Trial := run.entries.filterMap Entry.trial?

theorem traceIn_eq_flatMap (heard : Trial → List Event) (entries : List (Entry Run)) :
    traceIn heard entries = entries.flatMap (traceOf heard) := by
  induction entries with
  | nil => rfl
  | cons entry rest ih => rw [traceIn, ih, List.flatMap_cons]

theorem visitsIn_eq_flatMap (entries : List (Entry Run)) :
    visitsIn entries = entries.flatMap visitsOf := by
  induction entries with
  | nil => rfl
  | cons entry rest ih => rw [visitsIn, ih, List.flatMap_cons]

theorem trace_eq (heard : Trial → List Event) (run : Run) :
    run.trace heard = run.entries.flatMap (traceOf heard) := by
  cases run
  rw [trace, traceIn_eq_flatMap]

theorem visits_eq (run : Run) : run.visits = run.entries.flatMap visitsOf ++ [([], run)] := by
  cases run
  rw [visits, visitsIn_eq_flatMap]

end Run

namespace Entry

/-- Trials and, after them, reports. -/
def closing (trials : List Trial) (reports : List Event) : List (Entry Run) :=
  trials.map .trial ++ reports.map .report

variable (trials : List Trial) (reports : List Event)

@[simp] theorem filterMap_report?_closing :
    (closing trials reports).filterMap report? = reports := by
  have none : (trials.map .trial : List (Entry Run)).filterMap report? = [] :=
    List.filterMap_eq_nil_iff.mpr fun _ mem => by
      obtain ⟨trial, -, rfl⟩ := List.mem_map.mp mem
      rfl
  rw [closing, List.filterMap_append, none, List.nil_append, List.filterMap_map]
  exact List.filterMap_some

@[simp] theorem filterMap_trial?_closing :
    (closing trials reports).filterMap trial? = trials := by
  have none : (reports.map .report : List (Entry Run)).filterMap trial? = [] :=
    List.filterMap_eq_nil_iff.mpr fun _ mem => by
      obtain ⟨event, -, rfl⟩ := List.mem_map.mp mem
      rfl
  rw [closing, List.filterMap_append, none, List.append_nil, List.filterMap_map]
  exact List.filterMap_some

@[simp] theorem flatMap_visitsOf_closing : (closing trials reports).flatMap Run.visitsOf = [] := by
  refine List.flatMap_eq_nil_iff.mpr fun entry mem => ?_
  rcases List.mem_append.mp mem with trial | report
  · obtain ⟨trial, -, rfl⟩ := List.mem_map.mp trial
    rfl
  · obtain ⟨event, -, rfl⟩ := List.mem_map.mp report
    rfl

@[simp] theorem flatMap_traceOf_closing (heard : Trial → List Event) :
    (closing trials reports).flatMap (Run.traceOf heard) = trials.flatMap heard ++ reports := by
  rw [closing, List.flatMap_append, List.flatMap_map, List.flatMap_map]
  congr 1
  exact List.flatMap_singleton' reports

end Entry

/-- A result and what happened on the way to it. -/
structure Recorded (α : Type) where
  result : α
  entries : List (Entry Run)

namespace Recorded

variable {α β : Type}

instance : Monad Recorded where
  pure a := ⟨a, []⟩
  bind x k := ⟨(k x.result).result, x.entries ++ (k x.result).entries⟩

def note (entry : Entry Run) : Recorded Unit := ⟨(), [entry]⟩

/-- Visit a part and take over its verdict. -/
def part (turn : Turn) (run : Run) : Recorded Bool := do
  note (.part turn run)
  return run.verdict

/-- Call a refinement. -/
def trial (index : Nat) (p : Predicate) (v : Value) : Recorded Bool := do
  note (.trial ⟨index, v, p v⟩)
  return (p v).result

/-- Report an event if the verdict is against. -/
def onReject (e : Event) (x : Recorded Bool) : Recorded Bool := do
  let accepted ← x
  unless accepted do note (.report e)
  return accepted

/-- Both, the second only if the first holds. -/
def both (x y : Recorded Bool) : Recorded Bool := do if ← x then y else return false

/-- One of two, the second tried only if the first fails. -/
def either (x y : Recorded Bool) : Recorded Bool := do if ← x then return true else y

/-- What happened is all that happened during a visit. -/
def during (visit : Visit) (x : Recorded Bool) : Run := ⟨visit, x.entries, x.result⟩

/-- Keep only result and events. -/
def erase (x : Recorded α) : Traced α :=
  ⟨x.result, x.entries.flatMap (Run.traceOf fun trial => trial.answer.events)⟩

@[simp] theorem result_pure (a : α) : (pure a : Recorded α).result = a := rfl

@[simp] theorem entries_pure (a : α) : (pure a : Recorded α).entries = [] := rfl

@[simp] theorem result_bind (x : Recorded α) (k : α → Recorded β) :
    (x >>= k).result = (k x.result).result := rfl

@[simp] theorem entries_bind (x : Recorded α) (k : α → Recorded β) :
    (x >>= k).entries = x.entries ++ (k x.result).entries := rfl

@[simp] theorem entries_note (entry : Entry Run) : (note entry).entries = [entry] := rfl

@[simp] theorem entries_part (turn : Turn) (run : Run) :
    (part turn run).entries = [.part turn run] := rfl

@[simp] theorem result_onReject (e : Event) (x : Recorded Bool) :
    (x.onReject e).result = x.result := by
  cases h : x.result <;> simp [onReject, h]

@[simp] theorem entries_onReject (e : Event) (x : Recorded Bool) :
    (x.onReject e).entries = x.entries ++ if x.result then [] else [.report e] := by
  cases h : x.result <;> simp [onReject, h]

@[simp] theorem entries_both (x y : Recorded Bool) :
    (x.both y).entries = x.entries ++ if x.result then y.entries else [] := by
  cases h : x.result <;> simp [both, h]

@[simp] theorem entries_either (x y : Recorded Bool) :
    (x.either y).entries = x.entries ++ if x.result then [] else y.entries := by
  cases h : x.result <;> simp [either, h]

theorem allM_cons (p : α → Recorded Bool) (a : α) (as : List α) :
    (a :: as).allM p = both (p a) (as.allM p) := by
  rw [List.allM_cons]
  rfl

theorem anyM_cons (p : α → Recorded Bool) (a : α) (as : List α) :
    (a :: as).anyM p = either (p a) (as.anyM p) := by
  rw [List.anyM_cons]
  rfl

theorem mem_entries_allM {p : α → Recorded Bool} {as : List α} {entry : Entry Run}
    (h : entry ∈ (as.allM p).entries) : ∃ a ∈ as, entry ∈ (p a).entries := by
  induction as with
  | nil => cases h
  | cons a as ih =>
    rw [allM_cons, entries_both, List.mem_append] at h
    rcases h with first | later
    · exact ⟨a, List.mem_cons_self, first⟩
    · obtain ⟨-, later⟩ := List.mem_ite_nil_right.mp later
      obtain ⟨b, hb, mem⟩ := ih later
      exact ⟨b, List.mem_cons_of_mem a hb, mem⟩

theorem mem_entries_anyM {p : α → Recorded Bool} {as : List α} {entry : Entry Run}
    (h : entry ∈ (as.anyM p).entries) : ∃ a ∈ as, entry ∈ (p a).entries := by
  induction as with
  | nil => cases h
  | cons a as ih =>
    rw [anyM_cons, entries_either, List.mem_append] at h
    rcases h with first | later
    · exact ⟨a, List.mem_cons_self, first⟩
    · obtain ⟨-, later⟩ := List.mem_ite_nil_left.mp later
      obtain ⟨b, hb, mem⟩ := ih later
      exact ⟨b, List.mem_cons_of_mem a hb, mem⟩

/-- Where no element fails, the search visits all. -/
theorem entries_allM {p : α → Recorded Bool} {as : List α} (h : ∀ a ∈ as, (p a).result = true) :
    (as.allM p).entries = as.flatMap fun a => (p a).entries := by
  induction as with
  | nil => rfl
  | cons a as ih =>
    rw [allM_cons, entries_both, if_pos (h a List.mem_cons_self), List.flatMap_cons,
      ih fun b hb => h b (List.mem_cons_of_mem a hb)]

/-- The elements after a failure are not looked at. -/
theorem entries_allM_append {p : α → Recorded Bool} {before : List α} {a : α} (after : List α)
    (h : ∀ b ∈ before, (p b).result = true) (ha : (p a).result = false) :
    ((before ++ a :: after).allM p).entries =
      (before.flatMap fun b => (p b).entries) ++ (p a).entries := by
  induction before with
  | nil => simp [ha]
  | cons b before ih =>
    rw [List.cons_append, allM_cons, entries_both, if_pos (h b List.mem_cons_self),
      ih fun c hc => h c (List.mem_cons_of_mem b hc), List.flatMap_cons, List.append_assoc]

/-! ## Erasure -/

@[simp] theorem result_erase (x : Recorded α) : x.erase.result = x.result := rfl

@[simp] theorem erase_pure (a : α) : erase (pure a) = pure a := rfl

@[simp] theorem erase_bind (x : Recorded α) (k : α → Recorded β) :
    erase (x >>= k) = erase x >>= fun a => erase (k a) :=
  Traced.ext rfl (by simp [erase])

@[simp] theorem erase_part (turn : Turn) (run : Run) : erase (part turn run) = run.outcome :=
  Traced.ext rfl (by simp [erase, Run.traceOf, Run.outcome, Run.events])

@[simp] theorem erase_trial (index : Nat) (p : Predicate) (v : Value) :
    erase (trial index p v) = p v :=
  Traced.ext rfl (by simp [erase, trial, Run.traceOf])

theorem erase_onReject (e : Event) (x : Recorded Bool) :
    erase (x.onReject e) = x.erase.onReject e :=
  Traced.ext (by simp) (by cases h : x.result <;> simp [erase, h, Run.traceOf])

theorem erase_both (x y : Recorded Bool) : erase (x.both y) = x.erase.both y.erase := by
  simp only [both, Traced.both, erase_bind, apply_ite erase, erase_pure]

theorem erase_allM (p : α → Recorded Bool) (as : List α) :
    erase (as.allM p) = as.allM fun a => erase (p a) := by
  induction as with
  | nil => rfl
  | cons a as ih => simp only [List.allM_cons, erase_bind, apply_ite erase, ih, erase_pure]

theorem erase_anyM (p : α → Recorded Bool) (as : List α) :
    erase (as.anyM p) = as.anyM fun a => erase (p a) := by
  induction as with
  | nil => rfl
  | cons a as ih => simp only [List.anyM_cons, erase_bind, apply_ite erase, ih, erase_pure]

theorem outcome_during (visit : Visit) (x : Recorded Bool) : (x.during visit).outcome = x.erase :=
  Traced.ext rfl (Run.trace_eq _ _)

/-- Parts are visited in a search, and leave nothing but their runs. -/
theorem exists_of_mem_entries_search {x : Visit} {record : Visit → Run} {entry : Entry Run}
    (h : entry ∈ (x.search fun y => part y.1 (record y.2)).entries) :
    ∃ turn y, (turn, y) ∈ x.parts ∧ entry = .part turn (record y) := by
  have mem : ∃ y ∈ x.parts, entry ∈ (part y.1 (record y.2)).entries := by
    rw [Visit.search] at h
    split at h
    · split at h
      · cases h
      · exact mem_entries_anyM h
    · split at h
      · exact mem_entries_allM h
      · cases h
  obtain ⟨⟨turn, y⟩, hy, eq⟩ := mem
  exact ⟨turn, y, hy, List.mem_singleton.mp eq⟩

theorem erase_search (x : Visit) (judge : Turn × Visit → Recorded Bool) :
    erase (x.search judge) = x.search fun y => erase (judge y) := by
  simp only [Visit.search, apply_ite erase, erase_pure, erase_allM, erase_anyM]

end Recorded

end SchemaValidation
