import SchemaValidation.Proofs.Growth

/-!
# Admission

Under what conditions a schema is registered, and what that changes.

The reasons to refuse a schema are asked for in a fixed order, and in a session each can be told from
what the configuration says and what the registry shows: there is room for another name exactly
while the registry holds fewer schemas than it may, for it never holds more.  A schema that is
refused leaves no trace, neither in the registry nor in the log.  One that is admitted takes its
name, and leaves the other names alone.
-/

namespace SchemaValidation

namespace Registry

variable {config : Config} {r r' : Registry} {outcome : Traced Answer} {name : String} {s : Schema}
  {history : List Exchange}

/-! ## Reasons -/

/-- The configuration has nothing against the schema. -/
def Config.Allows (config : Config) (s : Schema) : Prop :=
  config.rejectUndeclared = true → s.undeclaredPaths = []

theorem Config.allows_iff :
    config.Allows s ↔ (config.rejectUndeclared = true → s.ensureDeclared = .ok ()) := by
  rw [Config.Allows, Schema.ensureDeclared_eq_ok_iff_undeclaredPaths]

theorem refuses_undeclared_iff {bound : Finset String} {path : String} :
    Refuses config bound name s (.undeclared path) ↔
      config.rejectUndeclared = true ∧ s.undeclaredPaths.head? = some path := by
  constructor
  · rintro ⟨strict, first⟩
    exact ⟨strict, first⟩
  · rintro ⟨strict, first⟩
    exact .undeclared strict first

theorem refuses_alreadyRegistered_iff {bound : Finset String} {key : String} :
    Refuses config bound name s (.alreadyRegistered key) ↔
      key = name ∧ config.Allows s ∧ name ∈ bound ∧ config.allowReplace = false := by
  rw [Config.allows_iff]
  constructor
  · intro h
    cases h with
    | taken declared mem fixed => exact ⟨rfl, declared, mem, fixed⟩
  · rintro ⟨rfl, declared, mem, fixed⟩
    exact .taken declared mem fixed

theorem refuses_limitExceeded_iff {bound : Finset String} {max : Nat} :
    Refuses config bound name s (.limitExceeded max) ↔
      max = config.maxSchemas ∧ config.Allows s ∧ name ∉ bound ∧ config.maxSchemas ≤ bound.card := by
  rw [Config.allows_iff]
  constructor
  · intro h
    cases h with
    | full declared new full => exact ⟨rfl, declared, new, full⟩
  · rintro ⟨rfl, declared, new, full⟩
    exact .full declared new full

/-! ## Outcomes -/

/-- A registration fails if the schema is refused. -/
theorem result_register_eq_error_iff {e : SchemaError} :
    (r.answer (.register name s)).result = .done (.error e) ↔
      Refuses r.config r.bound name s e := by
  rw [← Update.run_register_fails_iff, answer, Traced.result_map, Answer.done.injEq]

/-- A registration that does not fail succeeds. -/
theorem result_register_eq_ok_iff :
    (r.answer (.register name s)).result = .done (.ok ()) ↔
      r.config.Allows s ∧ (name ∈ r.bound → r.config.allowReplace = true) ∧
      (name ∉ r.bound → r.bound.card < r.config.maxSchemas) := by
  have replaceable : (name ∈ r.bound → r.config.allowReplace = true) ↔
      (r.config.allowReplace = false → name ∉ r.bound) := by
    rw [imp_not_comm, Bool.not_eq_false]
  rw [Config.allows_iff, replaceable, ← not_refuses_iff]
  simp only [← result_register_eq_error_iff, answer, Traced.result_map]
  cases ((Update.register name s).run r).result.1 <;> simp

/-! ## What changes -/

/-- All that was reported in the course of a history. -/
def log (history : List Exchange) : List Event := history.flatMap fun x => x.outcome.events

theorem log_concat (history : List Exchange) (x : Exchange) :
    log (history ++ [x]) = log history ++ x.outcome.events := by
  rw [log, List.flatMap_append, List.flatMap_singleton]
  rfl

/-- One name has come to be bound to a schema, and that is all that has changed. -/
structure Rebound (r r' : Registry) (name : String) (s : Schema) : Prop where
  bound : r'.get? name = some s
  others : ∀ key, key ≠ name → r'.get? key = r.get? key
  config : r'.config = r.config
  size : r'.size = if r.contains name then r.size else r.size + 1

theorem rebound_insert (r : Registry) (name : String) (s : Schema) :
    r.Rebound (r.insert name s) name s where
  bound := by rw [get?_insert, if_pos rfl]
  others key other := by rw [get?_insert, if_neg other]
  config := config_insert r name s
  size := by
    rw [← card_bound, ← card_bound, bound_insert]
    by_cases old : name ∈ r.bound
    · rw [Finset.insert_eq_of_mem old, if_pos (mem_bound_iff.mp old)]
    · rw [Finset.card_insert_of_notMem old, if_neg (mt mem_bound_iff.mpr old)]

/-- A refusal changes nothing and is not reported. -/
theorem Move.of_error (move : r.Move (.register name s) outcome r') {e : SchemaError}
    (failed : outcome.result = .done (.error e)) : r' = r ∧ outcome.events = [] := by
  cases move with
  | read reads => exact (reads name s rfl).elim
  | refused => exact ⟨rfl, rfl⟩
  | added => cases failed
  | replaced => cases failed

/-- What is admitted is bound and reported. -/
theorem Move.of_ok (move : r.Move (.register name s) outcome r')
    (done : outcome.result = .done (.ok ())) :
    r.Rebound r' name s ∧ ∃ event, outcome.events = [event] := by
  cases move with
  | read reads => exact (reads name s rfl).elim
  | refused => cases done
  | added => exact ⟨r.rebound_insert name s, _, rfl⟩
  | replaced => exact ⟨r.rebound_insert name s, _, rfl⟩

/-- In a session a schema is refused for its first undeclared path, if the configuration minds that;
otherwise for its name, if that is bound and may not be replaced; otherwise for want of room, if the
name is new and the registry holds as many schemas as it may; and otherwise it is registered.  A
refusal leaves the registry and the log as they were.  A registration binds the name, changes no
other binding, and adds one event to the log. -/
theorem Session.register_decides (session : Session config history r) (name : String)
    (s : Schema) :
    (∀ path, (r.answer (.register name s)).result = .done (.error (.undeclared path)) ↔
      config.rejectUndeclared = true ∧ s.undeclaredPaths.head? = some path) ∧
    ((r.answer (.register name s)).result = .done (.error (.alreadyRegistered name)) ↔
      config.Allows s ∧ r.contains name = true ∧ config.allowReplace = false) ∧
    ((r.answer (.register name s)).result = .done (.error (.limitExceeded config.maxSchemas)) ↔
      config.Allows s ∧ r.contains name = false ∧ r.size = config.maxSchemas) ∧
    ((r.answer (.register name s)).result = .done (.ok ()) ↔
      config.Allows s ∧ (r.contains name = true → config.allowReplace = true) ∧
      (r.contains name = false → r.size ≠ config.maxSchemas)) ∧
    (∀ e, (r.answer (.register name s)).result = .done (.error e) →
      r.after (.register name s) = r ∧
      log (history ++ [⟨.register name s, r.answer (.register name s)⟩]) = log history) ∧
    ((r.answer (.register name s)).result = .done (.ok ()) →
      r.Rebound (r.after (.register name s)) name s ∧
      ∃ event, log (history ++ [⟨.register name s, r.answer (.register name s)⟩]) =
        log history ++ [event]) := by
  have config_eq := session.config_eq
  have room := session.sound.room
  rw [card_bound, config_eq] at room
  have move := r.move (.register name s)
  refine ⟨fun path => ?_, ?_, ?_, ?_, fun e failed => ?_, fun done => ?_⟩
  · rw [result_register_eq_error_iff, refuses_undeclared_iff, config_eq]
  · rw [result_register_eq_error_iff, refuses_alreadyRegistered_iff, mem_bound_iff, config_eq]
    exact and_iff_right rfl
  · -- a registry that is not short of room is full if it holds just as many schemas as it may
    rw [result_register_eq_error_iff, refuses_limitExceeded_iff, mem_bound_iff, config_eq,
      card_bound, Bool.not_eq_true, room.ge_iff_eq]
    exact and_iff_right rfl
  · rw [result_register_eq_ok_iff, mem_bound_iff, config_eq, card_bound, Bool.not_eq_true,
      room.lt_iff_ne]
  · obtain ⟨registry, silent⟩ := move.of_error failed
    exact ⟨registry, by rw [log_concat, silent, List.append_nil]⟩
  · obtain ⟨rebound, event, reported⟩ := move.of_ok done
    exact ⟨rebound, event, by rw [log_concat, reported]⟩

/-- The only place is taken: another name is refused for want of room, but for the undeclared schema
first if there is one. -/
theorem Session.register_decides_full : ∃ history r,
    Session ⟨false, true, false, 1⟩ history r ∧ r.size = 1 ∧
    (r.answer (.register "b" (.number .blank))).result = .done (.error (.limitExceeded 1)) ∧
    r.after (.register "b" (.number .blank)) = r ∧
    (r.answer (.register "b" .blank)).result = .done (.error (.undeclared "$")) := by
  have opened : Session ⟨false, true, false, 1⟩ [] (empty ⟨false, true, false, 1⟩) := .start
  have session := opened.call (.register "a" (.string .blank))
  obtain ⟨-, -, full, -, untouched, -⟩ := session.register_decides "b" (.number .blank)
  obtain ⟨undeclared, -⟩ := session.register_decides "b" .blank
  have refused := full.mpr ⟨fun _ => rfl, rfl, rfl⟩
  exact ⟨_, _, session, rfl, refused, (untouched _ refused).1,
    (undeclared "$").mpr ⟨rfl, rfl⟩⟩

end Registry

end SchemaValidation
