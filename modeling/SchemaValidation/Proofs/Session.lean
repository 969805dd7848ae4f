import SchemaValidation.Proofs.Registration

/-!
# Sessions

A session is a run of calls of a registry that starts out empty.  Its history tells what came of each
call, and what any later call answers can be read off the history: the registrations that succeeded
are bound in the registry, in order, and nothing else is (`Session.registry_eq`).

So calls that failed, and calls that only read, might as well not have been made
(`Session.leave_out`).
-/

namespace SchemaValidation

namespace Registry

/-- A call of a registry.  All but registrations only read. -/
inductive Call where
  | register (name : String) (s : Schema)
  | validate (name : String) (v : Value)
  | ensure (name : String) (v : Value)
  | get (name : String)
  | contains (name : String)
  | names
  | size
  | isEmpty
  | config

/-- What a call answers. -/
inductive Answer where
  | done (result : Except SchemaError Unit)
  | judged (verdict : Except SchemaError Bool)
  | schema (found : Option Schema)
  | flag (holds : Bool)
  | names (names : List String)
  | size (size : Nat)
  | config (config : Config)

/-- The answer to a call, with the events on the way to it. -/
def answer (r : Registry) : Call → Traced Answer
  | .register name s => (fun x => .done x.1) <$> (Update.register name s).run r
  | .validate name v => .judged <$> r.validate name v
  | .ensure name v => .done <$> r.ensure name v
  | .get name => return .schema (r.get? name)
  | .contains name => return .flag (r.contains name)
  | .names => return .names r.names
  | .size => return .size r.size
  | .isEmpty => return .flag r.isEmpty
  | .config => return .config r.config

/-- The registry after a call. -/
def after (r : Registry) : Call → Registry
  | .register name s => ((Update.register name s).run r).result.2
  | _ => r

/-- A call and what came of it. -/
structure Exchange where
  call : Call
  outcome : Traced Answer

/-- The history of a session, oldest exchange first, and the registry after it. -/
inductive Session (config : Config) : List Exchange → Registry → Prop
  | start : Session config [] (empty config)
  | call {history : List Exchange} {r : Registry} (session : Session config history r) (c : Call) :
      Session config (history ++ [⟨c, r.answer c⟩]) (r.after c)

namespace Exchange

/-- The binding that an exchange has made. -/
def binding? (x : Exchange) : Option (String × Schema) :=
  match x.call, x.outcome.result with
  | .register name s, .done (.ok _) => some (name, s)
  | _, _ => none

/-- The call failed, or it only read. -/
def Idle (x : Exchange) : Prop :=
  (∀ name s, x.call ≠ .register name s) ∨ ∃ e, x.outcome.result = .done (.error e)

theorem Idle.binding?_eq_none {x : Exchange} (h : x.Idle) : x.binding? = none := by
  obtain ⟨c, outcome⟩ := x
  cases c with
  | register name s =>
    rcases h with read | ⟨e, failed⟩
    · exact (read name s rfl).elim
    · have failed : outcome.result = .done (.error e) := failed
      rw [binding?, failed]
  | _ => rfl

end Exchange

/-- The entries that were registered in the course of a history. -/
def registrations (history : List Exchange) : List (String × Schema) :=
  history.filterMap Exchange.binding?

variable {config : Config} {r : Registry} {name : String} {s : Schema} {history : List Exchange}

/-- A call binds what it registers, and nothing else. -/
theorem after_eq (r : Registry) (c : Call) :
    r.after c = r.insertAll (registrations [⟨c, r.answer c⟩]) := by
  cases c with
  | register name s =>
    rcases Update.run_register r name s with ⟨e, -, run⟩ | ⟨-, run⟩
    · rw [after, registrations, answer, run]
      rfl
    · rw [after, registrations, answer, run]
      rfl
  | _ => rfl

theorem after_of_idle {c : Call} (h : Exchange.Idle ⟨c, r.answer c⟩) : r.after c = r := by
  rw [after_eq, registrations, List.filterMap_cons_none h.binding?_eq_none]
  rfl

namespace Session

/-- The registry holds what was registered, in order. -/
theorem registry_eq (session : Session config history r) :
    r = (empty config).insertAll (registrations history) := by
  induction session with
  | start => rfl
  | @call history r session c ih =>
    calc r.after c
        = r.insertAll (registrations [⟨c, r.answer c⟩]) := after_eq r c
      _ = ((empty config).insertAll (registrations history)).insertAll
            (registrations [⟨c, r.answer c⟩]) := by rw [← ih]
      _ = (empty config).insertAll (registrations (history ++ [⟨c, r.answer c⟩])) := by
          rw [← insertAll_append, registrations, registrations, registrations,
            List.filterMap_append]

theorem config_eq (session : Session config history r) : r.config = config := by
  rw [session.registry_eq, config_insertAll, config_empty]

theorem get?_eq_some_iff (session : Session config history r) :
    r.get? name = some s ↔ LastEntry (registrations history) name s := by
  rw [session.registry_eq]
  exact get?_insertAll_empty

theorem contains_iff (session : Session config history r) :
    r.contains name = true ↔ name ∈ entryNames (registrations history) := by
  rw [← mem_bound_iff, session.registry_eq, bound_insertAll_empty]

/-- What failed or only read can be left out of a session, and all other calls answer as before. -/
theorem leave_out {before later : List Exchange} {x : Exchange}
    (session : Session config history r) (split : history = before ++ x :: later)
    (idle : x.Idle) : Session config (before ++ later) r := by
  induction session generalizing later with
  | start => cases List.append_ne_nil_of_right_ne_nil before (List.cons_ne_nil _ _) split.symm
  | @call history r session c ih =>
    rcases concat_eq_append_cons split with ⟨rfl, rfl, rfl⟩ | ⟨rest, rfl, eq⟩
    · -- it is the last that is left out, and it has changed nothing
      rw [List.append_nil, after_of_idle idle]
      exact session
    · rw [← List.append_assoc]
      exact (ih eq).call c

end Session

/-! ## Answers -/

theorem validate_of_get? {v : Value} (found : r.get? name = some s) :
    r.validate name v = Except.ok <$> s.validate v := by
  rw [validate, found]

theorem validate_of_get?_eq_none {v : Value} (found : r.get? name = none) :
    r.validate name v =
      if r.config.failOnMissing then pure (.error (.noSchema name))
      else ⟨.ok true, [.unknownName name]⟩ := by
  rw [validate, found]

theorem eq_noSchema_of_validate {v : Value} {e : SchemaError}
    (h : (r.validate name v).result = .error e) : e = .noSchema name := by
  cases found : r.get? name with
  | some s =>
    rw [validate_of_get? found, Traced.result_map] at h
    cases h
  | none =>
    rw [validate_of_get?_eq_none found] at h
    split at h <;> cases h
    rfl

theorem result_ensure (r : Registry) (name : String) (v : Value) :
    (r.ensure name v).result = (r.validate name v).result.bind fun accepted =>
      if accepted then .ok () else .error (.rejected name) := by
  rw [ensure, Traced.result_map]
  rcases (r.validate name v).result with e | (_ | _) <;> rfl

/-- What a session answers is read off its history: about a name by the last registration under it
that succeeded, if there is one, and otherwise by the configuration.  A value is ensured if it is
validated.  Calls that failed or only read can be left out, and the rest of the session is the
same. -/
theorem Session.answers_by_history (session : Session config history r) :
    (∀ name s, LastEntry (registrations history) name s →
      r.answer (.get name) = pure (.schema (some s)) ∧
      r.answer (.contains name) = pure (.flag true) ∧
      ∀ v, r.answer (.validate name v) =
        (fun accepted => .judged (.ok accepted)) <$> s.validate v) ∧
    (∀ name, name ∉ entryNames (registrations history) →
      r.answer (.get name) = pure (.schema none) ∧
      r.answer (.contains name) = pure (.flag false) ∧
      ∀ v, r.answer (.validate name v) =
        if config.failOnMissing then pure (.judged (.error (.noSchema name)))
        else ⟨.judged (.ok true), [.unknownName name]⟩) ∧
    (∀ name v,
      ((r.answer (.ensure name v)).result = .done (.ok ()) ↔
        (r.answer (.validate name v)).result = .judged (.ok true)) ∧
      ((r.answer (.ensure name v)).result = .done (.error (.rejected name)) ↔
        (r.answer (.validate name v)).result = .judged (.ok false)) ∧
      ((r.answer (.ensure name v)).result = .done (.error (.noSchema name)) ↔
        (r.answer (.validate name v)).result = .judged (.error (.noSchema name))) ∧
      ((r.answer (.validate name v)).result = .judged (.ok true) ∨
        (r.answer (.validate name v)).result = .judged (.ok false) ∨
        (r.answer (.validate name v)).result = .judged (.error (.noSchema name)))) ∧
    (∀ before x later, history = before ++ x :: later → x.Idle →
      Session config (before ++ later) r) := by
  refine ⟨fun name s last => ?_, fun name new => ?_, fun name v => ?_,
    fun before x later split idle => session.leave_out split idle⟩
  · have found := session.get?_eq_some_iff.mpr last
    have bound := session.contains_iff.mpr last.mem_entryNames
    refine ⟨by rw [answer, found], by rw [answer, bound], fun v => ?_⟩
    rw [answer, validate_of_get? found, Functor.map_map]
  · have free : r.contains name = false :=
      Bool.eq_false_iff.mpr (mt session.contains_iff.mp new)
    have found : r.get? name = none :=
      Option.eq_none_iff_forall_ne_some.mpr fun s found =>
        new (session.get?_eq_some_iff.mp found).mem_entryNames
    refine ⟨by rw [answer, found], by rw [answer, free], fun v => ?_⟩
    rw [answer, validate_of_get?_eq_none found, session.config_eq]
    split <;> rfl
  · simp only [answer, Traced.result_map, result_ensure]
    cases verdict : (r.validate name v).result with
    | error e =>
      obtain rfl := eq_noSchema_of_validate verdict
      simp [Except.bind]
    | ok accepted => cases accepted <;> simp [Except.bind]

/-- A second registration under one name fails, and the first still counts. -/
theorem Session.answers_by_history_taken : ∃ history r,
    Session ⟨true, false, false, 1⟩ history r ∧
    LastEntry (registrations history) "a" (.string .blank) ∧
    (∀ v, r.answer (.validate "a" v) =
      (fun accepted => .judged (.ok accepted)) <$> (Schema.string .blank).validate v) ∧
    "b" ∉ entryNames (registrations history) ∧ r.answer (.get "b") = pure (.schema none) ∧
    ∃ before x later, history = before ++ x :: later ∧ x.Idle ∧
      Session ⟨true, false, false, 1⟩ (before ++ later) r := by
  have opened : Session ⟨true, false, false, 1⟩ [] (empty ⟨true, false, false, 1⟩) := .start
  have session := (opened.call (.register "a" (.string .blank))).call
    (.register "a" (.number .blank))
  obtain ⟨bound, free, -, left⟩ := session.answers_by_history
  have last : LastEntry [("a", .string .blank)] "a" (.string .blank) := ⟨[], [], rfl, nofun⟩
  have other : "b" ∉ entryNames [("a", .string .blank)] := by decide
  have idle : Exchange.Idle ⟨.register "a" (.number .blank),
      ((empty ⟨true, false, false, 1⟩).after (.register "a" (.string .blank))).answer
        (.register "a" (.number .blank))⟩ := .inr ⟨.alreadyRegistered "a", rfl⟩
  exact ⟨_, _, session, last, (bound _ _ last).2.2, other, (free _ other).1, _, _, _, rfl, idle,
    left _ _ _ rfl idle⟩

end Registry

end SchemaValidation
