import SchemaValidation.Predicate
import SchemaValidation.Proofs.Trials
import SchemaValidation.Proofs.Undeclared

/-!
# Places and positions

The place of a visit leads through a value as well as through a schema.  Forgetting which item of an
array a turn is to leaves a step in the schema, so every place has a position, and the visit is one
to the node at that position (`Schema.node?_of_mem_visits`).

That is how evaluation and `Schema.undeclared`, which walk the schema on their own, come to speak of
the same nodes: a visit that reports an undeclared node is at a position on the list
(`Schema.undeclared_of_reports`).
-/

namespace SchemaValidation

/-- The step in the schema that goes with a turn. -/
def Turn.step : Turn → Step
  | .property name => .property name
  | .item _ => .element
  | .alternative index => .alternative index

/-- The position in the schema that a place is at. -/
def Place.position (place : Place) : Position := place.map Turn.step

theorem Place.position_cons (turn : Turn) (place : Place) :
    position (turn :: place) = turn.step :: place.position := rfl

/-- A part judges with the child that its turn leads to. -/
theorem Visit.child?_of_mem_parts {x y : Visit} {turn : Turn} (h : (turn, y) ∈ x.parts) :
    x.node.child? turn.step = some y.node := by
  obtain ⟨⟨kind, required, refinements⟩, v⟩ := x
  cases kind with
  | unset | string | number | boolean => cases h
  | object properties =>
    obtain ⟨-, h⟩ := List.mem_ite_nil_right.mp h
    obtain ⟨⟨name, child⟩, mem, eq⟩ := List.mem_map.mp h
    cases eq
    exact Bindings.mem_toList_iff.mp mem
  | array element =>
    obtain ⟨_, _, eq⟩ := List.mem_map.mp h
    cases eq
    rfl
  | union alternatives =>
    obtain ⟨-, h⟩ := List.mem_ite_nil_left.mp h
    obtain ⟨⟨child, index⟩, mem, eq⟩ := List.mem_map.mp h
    cases eq
    exact List.mem_zipIdx_iff_getElem?.mp mem

namespace Schema

theorem node?_cons {s c : Schema} {step : Step} (h : s.child? step = some c) (rest : Position) :
    s.node? (step :: rest) = c.node? rest := by
  rw [node?, h, Option.bind_some]

/-- A visit is one to the node at the position of its place. -/
theorem node?_of_mem_visits {s : Schema} {v : Value} {place : Place} {run : Run}
    (h : (place, run) ∈ (s.record v).visits) :
    s.node? place.position = some run.visit.node := by
  induction s using Schema.induction generalizing v place with
  | node kind required refinements ih =>
    rcases Visit.mem_visits_iff (x := ⟨⟨kind, required, refinements⟩, v⟩).mp h with
      ⟨rfl, rfl⟩ | ⟨turn, y, rest, turned, inside, rfl⟩
    · rw [Visit.visit_record]
      rfl
    · have part := Visit.mem_parts_of_mem_turns turned
      rw [Place.position_cons, node?_cons (Visit.child?_of_mem_parts part)]
      exact ih y.node (Visit.mem_children_of_mem_parts part) inside

end Schema

/-! ## Reports of undeclared nodes -/

/-- The kind that an event names. -/
def Event.kind? : Event → Option KindName
  | .typeRejected kind _ => some kind
  | .refinementRejected kind _ => some kind
  | .registered _ kind => some kind
  | _ => none

namespace Visit

/-- What a visit reports names the kind of its node. -/
theorem Closes.kind?_of_mem {x : Visit} {trials : List Trial} {reports : List Event} {event : Event}
    (h : x.Closes trials reports) (mem : event ∈ reports) :
    event.kind? = some x.node.kind.name := by
  cases h with
  | settled | held => cases mem
  | type | refused =>
    cases List.mem_singleton.mp mem
    rfl

theorem kind?_of_mem_own {x : Visit} {event : Event} (mem : event ∈ x.record.own) :
    event.kind? = some x.node.kind.name :=
  x.closes.kind?_of_mem mem

/-- Where no refinement reports anything, all events are the evaluator's. -/
theorem events_record_of_silent {x : Visit}
    (silent : x.node.Everywhere fun t => ∀ p ∈ t.refinements, ∀ v, (p v).events = []) :
    x.record.events = x.record.reports := by
  obtain ⟨s, v⟩ := x
  induction s using Schema.induction generalizing v with
  | node kind required refinements ih =>
    have turns (entry : Entry Run)
        (mem : entry ∈ (Visit.mk ⟨kind, required, refinements⟩ v).turns) :
        Run.traceOf (fun trial => trial.answer.events) entry = Run.traceOf (fun _ => []) entry := by
      obtain ⟨turn, y, part, rfl⟩ := exists_of_mem_turns mem
      have child := mem_children_of_mem_parts part
      exact ih y.node child y.value (silent.child child)
    have trials : ((Visit.mk ⟨kind, required, refinements⟩ v).record.trials.flatMap
        fun trial => trial.answer.events) = [] := by
      apply List.flatMap_eq_nil_iff.mpr
      intro trial mem
      obtain ⟨earlier, later, split⟩ := List.append_of_mem mem
      obtain ⟨-, -, before, p, after, eq, -, rfl, -⟩ := (closes _).of_trial split
      exact silent.root p (by rw [eq]; exact List.mem_append_cons_self) v
    rw [Run.events, Run.reports, Run.trace_eq, Run.trace_eq, entries_record, List.flatMap_append,
      List.flatMap_append, Entry.flatMap_traceOf_closing, Entry.flatMap_traceOf_closing,
      List.flatMap_congr turns, trials]
    simp

end Visit

/-- Every visit that reports a node of no declared kind is to such a node, at a position whose path
is listed.  So a declared schema whose refinements report nothing leaves no event that names an
undeclared kind. -/
theorem Schema.undeclared_of_reports (s : Schema) (v : Value) :
    (s.record v).outcome = s.validate v ∧
      (∀ place run found, (place, run) ∈ (s.record v).visits →
        .typeRejected .unset found ∈ run.own →
          s.node? place.position = some run.visit.node ∧ s.UndeclaredAt place.position ∧
            place.position.text ∈ s.undeclaredPaths) ∧
      (s.ensureDeclared = .ok () →
        (s.Everywhere fun t => ∀ p ∈ t.refinements, ∀ w, (p w).events = []) →
          ∀ event ∈ (s.validate v).events, event.kind? ≠ some .unset) := by
  have outcome : (s.record v).outcome = s.validate v := Visit.outcome_record ⟨s, v⟩
  have undeclared (place : Place) (run : Run) (event : Event)
      (visited : (place, run) ∈ (s.record v).visits) (reported : event ∈ run.own)
      (unset : event.kind? = some .unset) : s.UndeclaredAt place.position := by
    have recorded : run = run.visit.record := Visit.eq_record_of_mem_visits (x := ⟨s, v⟩) visited
    rw [recorded] at reported
    have kind := (Visit.kind?_of_mem_own reported).symm.trans unset
    exact ⟨_, node?_of_mem_visits visited, Kind.name_eq_unset_iff.mp (Option.some.inj kind)⟩
  refine ⟨outcome, ?_, ?_⟩
  · intro place run found visited reported
    have at_position := undeclared place run _ visited reported rfl
    exact ⟨node?_of_mem_visits visited, at_position,
      mem_undeclaredPaths_iff.mpr ⟨_, at_position, rfl⟩⟩
  · intro declared silent event mem unset
    have events : (s.validate v).events = (s.record v).reports := by
      rw [← outcome]
      exact Visit.events_record_of_silent (x := ⟨s, v⟩) silent
    have reports : (s.record v).reports = (s.record v).visits.flatMap fun visit => visit.2.own :=
      Visit.reports_record ⟨s, v⟩
    rw [events, reports] at mem
    obtain ⟨⟨place, run⟩, visited, reported⟩ := List.mem_flatMap.mp mem
    exact ensureDeclared_eq_ok_iff.mp declared _ (undeclared place run event visited reported unset)

/-- An alternative without a kind is tried in vain, and is on the list.  The second schema has
no such node, and of its events none names one. -/
theorem Schema.undeclared_of_reports_oneOf :
    ((([.property "tags", .item 1, .alternative 0] : Place),
        (Visit.mk blank (.string "a")).record) ∈
      ((blank.object [("tags", blank.arrayOf (blank.oneOf [blank, blank.string]))]).record
        (.ofProperties [("tags", .array [.string "b", .string "a"])])).visits ∧
      .typeRejected .unset .string ∈ (Visit.mk blank (.string "a")).record.own ∧
      Position.text [.property "tags", .element, .alternative 0] ∈
        (blank.object [("tags",
          blank.arrayOf (blank.oneOf [blank, blank.string]))]).undeclaredPaths) ∧
    (blank.arrayOf (blank.string.which (Predicate.string (· = "a")))).ensureDeclared = .ok () ∧
    (blank.arrayOf (blank.string.which (Predicate.string (· = "a")))).Everywhere
      (fun t => ∀ p ∈ t.refinements, ∀ w, (p w).events = []) ∧
    .refinementRejected .string 0 ∈
      ((blank.arrayOf (blank.string.which (Predicate.string (· = "a")))).validate
        (.array [.string "b"])).events ∧
    (Event.refinementRejected .string 0).kind? ≠ some .unset := by
  have visited : (([.property "tags", .item 1, .alternative 0] : Place),
        (Visit.mk blank (.string "a")).record) ∈
      ((blank.object [("tags", blank.arrayOf (blank.oneOf [blank, blank.string]))]).record
        (.ofProperties [("tags", .array [.string "b", .string "a"])])).visits :=
    .tail _ (.tail _ (.tail _ (.head _)))
  have reported : .typeRejected .unset .string ∈ (Visit.mk blank (.string "a")).record.own :=
    .head _
  have declared :
      (blank.arrayOf (blank.string.which (Predicate.string (· = "a")))).ensureDeclared = .ok () :=
    rfl
  have silent : (blank.arrayOf (blank.string.which (Predicate.string (· = "a")))).Everywhere
      fun t => ∀ p ∈ t.refinements, ∀ w, (p w).events = [] := by
    refine everywhere_iff.mpr ⟨nofun, List.forall_mem_singleton.mpr ?_⟩
    exact everywhere_iff.mpr ⟨List.forall_mem_singleton.mpr fun _ => rfl, nofun⟩
  have rejected : .refinementRejected .string 0 ∈
      ((blank.arrayOf (blank.string.which (Predicate.string (· = "a")))).validate
        (.array [.string "b"])).events := by decide
  exact ⟨⟨visited, reported, ((undeclared_of_reports _ _).2.1 _ _ _ visited reported).2.2⟩,
    declared, silent, rejected, (undeclared_of_reports _ _).2.2 declared silent _ rejected⟩

end SchemaValidation
