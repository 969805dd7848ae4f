import SchemaValidation.Log
import SchemaValidation.Proofs.Growth
import SchemaValidation.Proofs.Views

/-!
# Journals

The journal of a session is what the registry itself reports in the course of it.  Of the events of
a call, those come from the registry that do not come from a schema (`Registry.events_answer`).

The journal can be replayed (`Registry.Replays`): the names that it says were registered are those
of the registry, and each replacement is of a schema that was registered before.  A registration
that succeeds is in it once, and one that fails is not.
-/

namespace SchemaValidation

namespace Event

/-- The name that was registered anew. -/
def newName? : Event → Option String
  | .registered name _ => some name
  | _ => none

/-- A schema gave way to another. -/
def isReplacement : Event → Bool
  | .replaced _ => true
  | _ => false

end Event

/-- The names that events say were registered anew. -/
def newNames (events : List Event) : List String := events.filterMap Event.newName?

namespace Registry

variable {config : Config} {r r' : Registry} {c : Call} {outcome : Traced Answer}
  {name : String} {s : Schema} {history : List Exchange} {events : List Event}

/-! ## What the registry reports -/

/-- What the schema that a call asks reports. -/
def asked (r : Registry) : Call → List Event
  | .validate name v | .ensure name v =>
    match r.get? name with
    | some s => (s.validate v).events
    | none => []
  | _ => []

/-- What the registry itself reports on a call. -/
def reported (r : Registry) : Call → List Event
  | .register name s => ((Update.register name s).run r).events
  | .validate name _ | .ensure name _ =>
    match r.get? name with
    | some _ => []
    | none => if r.config.failOnMissing then [] else [.unknownName name]
  | _ => []

theorem events_validate (r : Registry) (name : String) (v : Value) :
    (r.validate name v).events =
      r.reported (.validate name v) ++ r.asked (.validate name v) := by
  rw [reported, asked, validate]
  cases r.get? name with
  | some s => rfl
  | none => cases r.config.failOnMissing <;> rfl

/-- The events of a call are the registry's and then the schema's. -/
theorem events_answer (r : Registry) (c : Call) :
    (r.answer c).events = r.reported c ++ r.asked c := by
  cases c with
  | register name s => simp [answer, reported, asked]
  | validate name v => rw [answer, Traced.events_map, events_validate]
  | ensure name v =>
    rw [answer, Traced.events_map, ensure, Traced.events_map, events_validate]
    rfl
  | _ => rfl

/-- Of a call that reads, the registry reports at most that it does not know the name. -/
theorem reported_of_reads (reads : ∀ name s, c ≠ .register name s) :
    r.reported c = [] ∨ ∃ name, r.reported c = [.unknownName name] := by
  cases c with
  | register name s => exact (reads name s rfl).elim
  | validate name | ensure name =>
    rw [reported]
    split
    · exact .inl rfl
    · split
      · exact .inl rfl
      · exact .inr ⟨name, rfl⟩
  | _ => exact .inl rfl

/-- What the registry itself reports on some calls in turn. -/
def reportedAll (r : Registry) : List Call → List Event
  | [] => []
  | c :: calls => r.reported c ++ (r.after c).reportedAll calls

theorem reportedAll_append (r : Registry) (as bs : List Call) :
    r.reportedAll (as ++ bs) = r.reportedAll as ++ (as.foldl after r).reportedAll bs := by
  induction as generalizing r with
  | nil => rfl
  | cons c as ih =>
    rw [List.cons_append, reportedAll, reportedAll, ih, List.foldl_cons, List.append_assoc]

/-- What the registry itself reports in the course of a session. -/
def journal (config : Config) (history : List Exchange) : List Event :=
  (empty config).reportedAll (history.map Exchange.call)

namespace Session

theorem eq_foldl (session : Session config history r) :
    r = (history.map Exchange.call).foldl after (empty config) := by
  induction session with
  | start => rfl
  | @call history r session c ih =>
    rw [List.map_append, List.foldl_append, ← ih]
    rfl

/-- A further call adds what the registry then reports. -/
theorem journal_call (session : Session config history r) (c : Call) :
    journal config (history ++ [⟨c, r.answer c⟩]) = journal config history ++ r.reported c := by
  rw [journal, List.map_append, reportedAll_append, ← session.eq_foldl]
  simp [reportedAll, journal]

/-- The journal is part of all that was reported. -/
theorem journal_sublist (session : Session config history r) :
    (journal config history).Sublist (history.flatMap fun x => x.outcome.events) := by
  induction session with
  | start => exact .slnil
  | @call history r session c ih =>
    rw [session.journal_call, List.flatMap_append, List.flatMap_singleton]
    refine ih.append ?_
    rw [events_answer]
    exact List.sublist_append_left _ _

end Session

/-! ## Replaying -/

/-- The events tell how a registry came about by so many registrations. -/
structure Replays (events : List Event) (registrations : Nat) (r : Registry) : Prop where
  nodup : (newNames events).Nodup
  names : ∀ name, name ∈ newNames events ↔ name ∈ r.bound
  replaced : ∀ before name after, events = before ++ .replaced name :: after →
    r.config.allowReplace = true ∧ name ∈ newNames before
  count : r.bound.card + events.countP Event.isReplacement = registrations

theorem newNames_concat (events : List Event) (event : Event) :
    newNames (events ++ [event]) = newNames events ++ event.newName?.toList := by
  rw [newNames, List.filterMap_append]
  cases event <;> rfl

namespace Replays

variable {n : Nat}

theorem empty (config : Config) : Replays [] 0 (empty config) where
  nodup := List.nodup_nil
  names := by simp [newNames]
  replaced before name after split :=
    (List.append_ne_nil_of_right_ne_nil before (List.cons_ne_nil _ _) split.symm).elim
  count := by simp

/-- Where a replacement stands among events of which one is the last. -/
theorem replaced_concat {event : Event} (h : Replays events n r)
    (last : ∀ name, event = .replaced name →
      r.config.allowReplace = true ∧ name ∈ newNames events)
    {before after : List Event} (split : events ++ [event] = before ++ .replaced name :: after) :
    r.config.allowReplace = true ∧ name ∈ newNames before := by
  rcases concat_eq_append_cons split with ⟨-, rfl, eq⟩ | ⟨rest, -, eq⟩
  · exact last name eq
  · exact h.replaced before name rest eq

theorem unknown (h : Replays events n r) (name : String) :
    Replays (events ++ [.unknownName name]) n r where
  nodup := by
    rw [newNames_concat]
    simpa [Event.newName?] using h.nodup
  names key := by
    rw [newNames_concat, ← h.names key]
    simp [Event.newName?]
  replaced _ _ _ split := h.replaced_concat (fun _ eq => by cases eq) split
  count := by
    rw [List.countP_append]
    exact h.count

theorem added (h : Replays events n r) (new : name ∉ r.bound) :
    Replays (events ++ [.registered name s.kind.name]) (n + 1) (r.insert name s) where
  nodup := by
    rw [newNames_concat]
    exact List.concat_eq_append ▸ h.nodup.concat (mt (h.names name).mp new)
  names key := by
    rw [newNames_concat, bound_insert, List.mem_append, h.names key, Finset.mem_insert, or_comm]
    simp [Event.newName?]
  replaced _ _ _ split := h.replaced_concat (fun _ eq => by cases eq) split
  count := by
    rw [List.countP_append, bound_insert, Finset.card_insert_of_notMem new, ← h.count]
    simp [Event.isReplacement]
    omega

theorem replacing (h : Replays events n r) (old : name ∈ r.bound)
    (replaceable : r.config.allowReplace = true) :
    Replays (events ++ [.replaced name]) (n + 1) (r.insert name s) where
  nodup := by
    rw [newNames_concat]
    simpa [Event.newName?] using h.nodup
  names key := by
    rw [newNames_concat, bound_insert, Finset.insert_eq_of_mem old, ← h.names key]
    simp [Event.newName?]
  replaced _ _ _ split := by
    refine h.replaced_concat (fun key eq => ?_) split
    cases eq
    exact ⟨replaceable, (h.names name).mpr old⟩
  count := by
    rw [List.countP_append, bound_insert, Finset.insert_eq_of_mem old, ← h.count]
    rfl

/-- What one call adds to the events, it does to the registry. -/
theorem after (h : Replays events n r) (c : Call) :
    Replays (events ++ r.reported c)
      (n + (registrations [⟨c, r.answer c⟩]).length) (r.after c) := by
  have split : (r.answer c).events = r.reported c ++ r.asked c := r.events_answer c
  have move := r.move c
  generalize r.after c = r' at move ⊢
  generalize r.answer c = outcome at move split ⊢
  cases move with
  | read reads =>
    have bindings : registrations [⟨c, r.answer c⟩] = [] :=
      List.filterMap_cons_none (Exchange.Idle.binding?_eq_none (.inl reads))
    rw [bindings]
    rcases reported_of_reads reads with silent | ⟨name, unknown⟩
    · rwa [silent, List.append_nil]
    · rw [unknown]
      exact h.unknown name
  | refused refuses =>
    -- no schema is asked on a registration, so all its events are the registry's
    have silent : r.reported _ = [] := (List.append_nil _).symm.trans split.symm
    rwa [silent, List.append_nil]
  | added declared new room =>
    have event : r.reported _ = [_] := (List.append_nil _).symm.trans split.symm
    rw [event]
    exact h.added new
  | replaced declared old replaceable =>
    have event : r.reported _ = [_] := (List.append_nil _).symm.trans split.symm
    rw [event]
    exact h.replacing old replaceable

/-- The names in the events are those of the registry, each once. -/
theorem enumerates (h : Replays events n r) : r.Enumerates (newNames events) where
  nodup := h.nodup
  mem_iff name := by rw [h.names name, mem_bound_iff]

end Replays

theorem Session.replays (session : Session config history r) :
    Replays (journal config history) (registrations history).length r := by
  induction session with
  | start => exact .empty config
  | @call history r session c ih =>
    rw [session.journal_call, registrations, List.filterMap_append, List.length_append]
    exact ih.after c

/-! ## Outcomes of registrations -/

/-- A registration succeeds with one event, which is logged for debugging, or fails with none. -/
inductive Registered : Traced Answer → Prop
  | succeeded {event : Event} {record : Log.Record} (logged : event.record? = some record)
      (level : record.level = .debug) : Registered ⟨.done (.ok ()), [event]⟩
  | failed (e : SchemaError) : Registered ⟨.done (.error e), []⟩

theorem Move.registered (move : r.Move (.register name s) outcome r') : Registered outcome := by
  cases move with
  | read reads => exact (reads name s rfl).elim
  | refused => exact .failed _
  | added => exact .succeeded rfl rfl
  | replaced => exact .succeeded rfl rfl

theorem Session.registered (session : Session config history r) {x : Exchange} (mem : x ∈ history)
    (call : x.call = .register name s) : Registered x.outcome := by
  induction session with
  | start => cases mem
  | @call history r session c ih =>
    rcases List.mem_append.mp mem with earlier | last
    · exact ih earlier
    · obtain rfl := List.mem_singleton.mp last
      obtain rfl : c = .register name s := call
      exact (r.move _).registered

/-- The journal of a session, which is part of all that was reported, tells how the registry came
about.  A registration is in it once if it succeeded.  The names that were registered are different,
and sorted they are the names of the registry.  What was replaced had been registered before.  As
many registrations succeeded as there are names and replacements. -/
theorem Session.journal_replays (session : Session config history r) :
    (journal config history).Sublist (history.flatMap fun x => x.outcome.events) ∧
    (∀ x ∈ history, ∀ name s, x.call = .register name s → Registered x.outcome) ∧
    (newNames (journal config history)).Nodup ∧
    (newNames (journal config history)).mergeSort = r.names ∧
    (newNames (journal config history)).length = r.size ∧
    (∀ before name after, journal config history = before ++ .replaced name :: after →
      config.allowReplace = true ∧ name ∈ newNames before) ∧
    r.size + (journal config history).countP Event.isReplacement =
      (registrations history).length := by
  have replays := session.replays
  refine ⟨session.journal_sublist, fun x mem name s call => session.registered mem call,
    replays.nodup, replays.enumerates.mergeSort_eq, ?_, ?_, ?_⟩
  · rw [replays.enumerates.perm.length_eq, length_names]
  · exact session.config_eq ▸ replays.replaced
  · rw [← card_bound]
    exact replays.count

/-- One name, registered and replaced, beside a failure and a question about another name. -/
theorem Session.journal_replays_replaced : ∃ history r,
    Session ⟨false, false, true, 1⟩ history r ∧
    journal ⟨false, false, true, 1⟩ history =
      [.registered "a" .string, .replaced "a", .unknownName "c"] ∧
    r.names = ["a"] ∧ r.size + 1 = (registrations history).length := by
  have opened : Session ⟨false, false, true, 1⟩ [] (empty ⟨false, false, true, 1⟩) := .start
  have session := (((opened.call (.register "a" (.string .blank))).call
    (.register "a" (.number .blank))).call (.register "b" (.string .blank))).call
      (.validate "c" .absent)
  obtain ⟨-, -, -, sorted, -, -, count⟩ := session.journal_replays
  exact ⟨_, _, session, rfl, sorted.symm.trans (List.mergeSort_singleton "a"), count⟩

end Registry

end SchemaValidation
