import SchemaValidation.Proofs.Run

/-!
# The recording evaluator

`Schema.record` evaluates a schema step by step as `Schema.validate` does, and keeps a run instead
of events.  `Visit.outcome_record` says that verdict and events are the same.

During a visit first come the parts that it turns to, then its closing (`Visit.entries_record`): the
trials of refinements, or the report that the type check failed.  A closing has no parts, so runs
are nested through turns alone, and every visit of a recorded run is recorded in the same way
(`Visit.eq_record_of_mem_visits`).  A fact of all visits of a run is therefore one about a closing.
-/

namespace SchemaValidation

namespace Schema

/-- Try the refinements of a node in order, up to the first that does not hold. -/
def recordRefinements (kind : KindName) (refinements : List Predicate) (v : Value) :
    Recorded Bool :=
  refinements.zipIdx.allM fun (p, index) =>
    (Recorded.trial index p v).onReject (.refinementRejected kind index)

mutual

/-- The run of a visit. -/
def record : Schema → Value → Run
  | ⟨kind, required, refinements⟩, v =>
    Recorded.during ⟨⟨kind, required, refinements⟩, v⟩ <|
      if v.isAbsent && !kind.handlesAbsence then return !required
      else ((recordFits kind required v).onReject (.typeRejected kind.name v.typeName)).both
        (recordRefinements kind.name refinements v)
termination_by structural s => s

def recordFits : Kind Schema → Bool → Value → Recorded Bool
  | .unset, _, _ => return false
  | .string, _, v => return v.typeName = .string
  | .number, _, v => return v.typeName = .number
  | .boolean, _, v => return v.typeName = .boolean
  | .object properties, _, v =>
    match v.typeName with
    | .object | .array => recordProperties properties v
    | .null => return properties.isEmpty
    | _ => return false
  | .array element, required, v =>
    match v with
    | .array items => items.zipIdx.allM fun (item, index) =>
        Recorded.part (.item index) (record element item)
    | v => return !required && v.isAbsent
  | .union alternatives, required, v =>
    if !required && v.isAbsent then return true else recordAny 0 alternatives v
termination_by structural kind => kind

def recordProperties {floor : Option String} : Bindings Schema floor → Value → Recorded Bool
  | .nil, _ => return true
  | .cons name _ child rest, v =>
    (Recorded.part (.property name) (record child (v.get name))).both (recordProperties rest v)
termination_by structural properties => properties

/-- The alternatives are counted from `index`. -/
def recordAny (index : Nat) : List Schema → Value → Recorded Bool
  | [], _ => return false
  | alternative :: rest, v =>
    (Recorded.part (.alternative index) (record alternative v)).either
      (recordAny (index + 1) rest v)
termination_by structural alternatives => alternatives

end

theorem recordProperties_eq {floor : Option String} (properties : Bindings Schema floor)
    (v : Value) : recordProperties properties v = properties.toList.allM fun binding =>
      Recorded.part (.property binding.1) (binding.2.record (v.get binding.1)) := by
  induction properties with
  | nil => rfl
  | cons name follows child rest ih =>
    rw [recordProperties, ih, Bindings.toList_cons, Recorded.allM_cons]

theorem recordAny_eq (index : Nat) (alternatives : List Schema) (v : Value) :
    recordAny index alternatives v = (alternatives.zipIdx index).anyM fun counted =>
      Recorded.part (.alternative counted.2) (counted.1.record v) := by
  induction alternatives generalizing index with
  | nil => rfl
  | cons alternative rest ih =>
    rw [recordAny, ih, List.zipIdx_cons, Recorded.anyM_cons]

/-- Refinements called with a value, in order. -/
def trials (refinements : List Predicate) (v : Value) : List Trial :=
  refinements.zipIdx.map fun (p, index) => ⟨index, v, p v⟩

variable {kind : KindName} {v : Value}

/-- While refinements hold, they are tried and nothing else happens. -/
theorem flatMap_zipIdx_trial {ps : List Predicate} (h : ∀ p ∈ ps, (p v).result = true) :
    (ps.zipIdx.flatMap fun a => ((Recorded.trial a.2 a.1 v).onReject
      (.refinementRejected kind a.2)).entries) = (trials ps v).map .trial := by
  rw [trials, List.map_map, List.map_eq_flatMap]
  refine List.flatMap_congr fun a ha => ?_
  have held : (Recorded.trial a.2 a.1 v).result = true := h a.1 (List.fst_mem_of_mem_zipIdx ha)
  rw [Recorded.entries_onReject, if_pos held, List.append_nil]
  rfl

theorem entries_recordRefinements {ps : List Predicate} (h : ∀ p ∈ ps, (p v).result = true) :
    (recordRefinements kind ps v).entries = (trials ps v).map .trial := by
  rw [recordRefinements, Recorded.entries_allM, flatMap_zipIdx_trial h]
  intro a ha
  rw [Recorded.result_onReject]
  exact h a.1 (List.fst_mem_of_mem_zipIdx ha)

/-- The first refinement that does not hold is the last to be tried. -/
theorem entries_recordRefinements_append {before after : List Predicate} {p : Predicate}
    (h : ∀ q ∈ before, (q v).result = true) (hp : (p v).result = false) :
    (recordRefinements kind (before ++ p :: after) v).entries =
      (trials (before ++ [p]) v).map .trial ++
        [.report (.refinementRejected kind before.length)] := by
  rw [recordRefinements, List.zipIdx_append, List.zipIdx_cons, Recorded.entries_allM_append,
    flatMap_zipIdx_trial h]
  · have refused : (Recorded.trial before.length p v).result = false := hp
    rw [Nat.zero_add, Recorded.entries_onReject, refused]
    simp [trials, List.zipIdx_append, Recorded.trial]
  · intro a ha
    rw [Recorded.result_onReject]
    exact h a.1 (List.fst_mem_of_mem_zipIdx ha)
  · rw [Recorded.result_onReject]
    exact hp

theorem erase_recordRefinements (refinements : List Predicate) :
    (recordRefinements kind refinements v).erase = refinementsHold kind refinements v := by
  simp only [recordRefinements, refinementsHold, Recorded.erase_allM, Recorded.erase_onReject,
    Recorded.erase_trial]

end Schema

namespace Visit

def record (x : Visit) : Run := x.node.record x.value

theorem recordFits_eq_search (x : Visit) :
    Schema.recordFits x.node.kind x.node.required x.value =
      x.search fun part => Recorded.part part.1 part.2.record := by
  obtain ⟨⟨kind, required, refinements⟩, v⟩ := x
  cases kind with
  | unset => rfl
  | string | number | boolean => cases v <;> rfl
  | object properties =>
    have properties_eq : Schema.recordProperties properties v =
        (properties.toList.map fun binding =>
          (Turn.property binding.1, Visit.mk binding.2 (v.get binding.1))).allM fun part =>
            Recorded.part part.1 part.2.record := by
      rw [Schema.recordProperties_eq, allM_map]
      rfl
    cases v with
    | array | object => exact properties_eq
    | null => cases properties <;> rfl
    | absent | boolean | number | string => rfl
  | array element =>
    cases v with
    | array items =>
      simp only [Schema.recordFits, search, parts, Value.items?, Option.getD_some]
      rw [allM_map]
      rfl
    | absent => cases required <;> rfl
    | null | boolean | number | string | object => cases required <;> rfl
  | union alternatives =>
    have union : (Kind.union alternatives).name = .union := rfl
    rw [search, if_pos union, Schema.recordFits, Schema.recordAny_eq]
    simp only [parts]
    split
    · rfl
    · rw [anyM_map]
      rfl

theorem record_eq (x : Visit) : x.record =
    Recorded.during x (if x.value.isAbsent && !x.node.kind.handlesAbsence then
        pure !x.node.required
      else ((Schema.recordFits x.node.kind x.node.required x.value).onReject
          x.typeRejection).both
        (Schema.recordRefinements x.node.kind.name x.node.refinements x.value)) := by
  obtain ⟨⟨kind, required, refinements⟩, v⟩ := x
  rw [record, Schema.record]
  rfl

/-- The type check is recorded as it is made, if its parts are. -/
theorem erase_recordFits_of_parts {x : Visit}
    (h : ∀ part ∈ x.parts, part.2.record.outcome = part.2.run) :
    (Schema.recordFits x.node.kind x.node.required x.value).erase =
      Schema.fits x.node.kind x.node.required x.value := by
  rw [recordFits_eq_search, Recorded.erase_search, fits_eq_search]
  refine search_congr rfl rfl (List.forall₂_same.mpr fun part mem => ?_)
  rw [Recorded.erase_part, h part mem]

/-- The run of a visit has the verdict and the events of its evaluation. -/
theorem outcome_record (x : Visit) : x.record.outcome = x.run := by
  obtain ⟨s, v⟩ := x
  induction s using Schema.induction generalizing v with
  | node kind required refinements ih =>
    have parts : ∀ part ∈ (Visit.mk ⟨kind, required, refinements⟩ v).parts,
        part.2.record.outcome = part.2.run := by
      rintro ⟨turn, y⟩ mem
      exact ih y.node (mem_children_of_mem_parts mem) y.value
    rw [record_eq, Recorded.outcome_during, apply_ite Recorded.erase, Recorded.erase_pure,
      Recorded.erase_both, Recorded.erase_onReject, Schema.erase_recordRefinements,
      erase_recordFits_of_parts parts, run, Schema.validate_eq]
    rfl

theorem verdict_record (x : Visit) : x.record.verdict = x.accepted :=
  congrArg Traced.result x.outcome_record

theorem result_recordFits (x : Visit) :
    (Schema.recordFits x.node.kind x.node.required x.value).result =
      (Schema.fits x.node.kind x.node.required x.value).result := by
  rw [← erase_recordFits_of_parts fun part _ => part.2.outcome_record, Recorded.result_erase]

/-! ## What happens during a visit -/

@[simp] theorem visit_record (x : Visit) : x.record.visit = x := by
  rw [record_eq]
  rfl

/-- The runs of the parts that a visit turns to. -/
def turns (x : Visit) : List (Entry Run) :=
  (Schema.recordFits x.node.kind x.node.required x.value).entries

theorem exists_of_mem_turns {x : Visit} {entry : Entry Run} (h : entry ∈ x.turns) :
    ∃ turn y, (turn, y) ∈ x.parts ∧ entry = .part turn y.record := by
  rw [turns, recordFits_eq_search] at h
  exact Recorded.exists_of_mem_entries_search h

/-- The trials and the reports of a visit, after it has turned to its parts. -/
inductive Closes (x : Visit) : List Trial → List Event → Prop
  | settled (settles : x.node.Settles x.value) : Closes x [] []
  | type (unsettled : ¬x.node.Settles x.value)
      (fails : (Schema.fits x.node.kind x.node.required x.value).result = false) :
      Closes x [] [x.typeRejection]
  | held (unsettled : ¬x.node.Settles x.value)
      (fits : (Schema.fits x.node.kind x.node.required x.value).result = true)
      (held : ∀ p ∈ x.node.refinements, (p x.value).result = true) :
      Closes x (Schema.trials x.node.refinements x.value) []
  | refused {before after : List Predicate} {p : Predicate}
      (unsettled : ¬x.node.Settles x.value)
      (fits : (Schema.fits x.node.kind x.node.required x.value).result = true)
      (split : x.node.refinements = before ++ p :: after)
      (held : ∀ q ∈ before, (q x.value).result = true) (failed : (p x.value).result = false) :
      Closes x (Schema.trials (before ++ [p]) x.value)
        [.refinementRejected x.node.kind.name before.length]

theorem entries_record_of_settles {x : Visit} (h : x.node.Settles x.value) :
    x.record.entries = x.turns := by
  have turns_eq : x.turns = [] := by
    refine List.eq_nil_iff_forall_not_mem.mpr fun entry mem => ?_
    obtain ⟨turn, y, hy, -⟩ := exists_of_mem_turns mem
    rw [parts_of_settles h] at hy
    cases hy
  rw [record_eq, if_pos (Schema.settles_iff.mp h), turns_eq]
  rfl

theorem entries_record_of_not_settles {x : Visit} (h : ¬x.node.Settles x.value) :
    x.record.entries = x.turns ++
      if (Schema.fits x.node.kind x.node.required x.value).result then
        (Schema.recordRefinements x.node.kind.name x.node.refinements x.value).entries
      else [.report x.typeRejection] := by
  rw [record_eq, if_neg (mt Schema.settles_iff.mpr h)]
  cases fits : (Schema.fits x.node.kind x.node.required x.value).result <;>
    simp [Recorded.during, result_recordFits, fits, turns]

/-- Once it has turned to its parts, a visit closes in one of four ways. -/
theorem exists_closes (x : Visit) : ∃ trials reports, x.Closes trials reports ∧
    x.record.entries = x.turns ++ Entry.closing trials reports := by
  by_cases settles : x.node.Settles x.value
  · refine ⟨[], [], .settled settles, ?_⟩
    rw [entries_record_of_settles settles]
    exact (List.append_nil _).symm
  · rw [entries_record_of_not_settles settles]
    cases fits : (Schema.fits x.node.kind x.node.required x.value).result with
    | false => exact ⟨[], [x.typeRejection], .type settles fits, rfl⟩
    | true =>
      rw [if_pos rfl]
      cases all : x.node.refinements.all fun p => (p x.value).result with
      | true =>
        have held := List.all_eq_true.mp all
        refine ⟨_, [], .held settles fits held, ?_⟩
        rw [Schema.entries_recordRefinements held]
        exact congrArg _ (List.append_nil _).symm
      | false =>
        obtain ⟨before, p, after, split, held, failed⟩ := exists_first all
        refine ⟨_, _, .refused settles fits split held failed, ?_⟩
        rw [split, Schema.entries_recordRefinements_append held failed]
        rfl

theorem filterMap_turns {β : Type} {f : Entry Run → Option β}
    (h : ∀ turn run, f (.part turn run) = none) (x : Visit) : x.turns.filterMap f = [] := by
  refine List.filterMap_eq_nil_iff.mpr fun entry mem => ?_
  obtain ⟨turn, y, -, rfl⟩ := exists_of_mem_turns mem
  exact h turn y.record

/-- A visit turns to its parts, then tries refinements, then reports. -/
theorem entries_record_closes (x : Visit) :
    x.record.entries = x.turns ++ Entry.closing x.record.trials x.record.own ∧
      x.Closes x.record.trials x.record.own := by
  obtain ⟨trials, reports, closes, eq⟩ := x.exists_closes
  have own : x.record.own = reports := by
    rw [Run.own, eq, List.filterMap_append, filterMap_turns (fun _ _ => rfl) x, List.nil_append,
      Entry.filterMap_report?_closing]
  have tried : x.record.trials = trials := by
    rw [Run.trials, eq, List.filterMap_append, filterMap_turns (fun _ _ => rfl) x, List.nil_append,
      Entry.filterMap_trial?_closing]
  rw [own, tried]
  exact ⟨eq, closes⟩

theorem entries_record (x : Visit) :
    x.record.entries = x.turns ++ Entry.closing x.record.trials x.record.own :=
  x.entries_record_closes.1

theorem closes (x : Visit) : x.Closes x.record.trials x.record.own := x.entries_record_closes.2

/-! ## The visits of a run -/

theorem visits_record (x : Visit) :
    x.record.visits = x.turns.flatMap Run.visitsOf ++ [([], x.record)] := by
  rw [Run.visits_eq, entries_record, List.flatMap_append, Entry.flatMap_visitsOf_closing,
    List.append_nil]

theorem mem_visits_record (x : Visit) : ([], x.record) ∈ x.record.visits := by
  rw [visits_record]
  exact List.mem_append_right _ (List.mem_singleton_self _)

theorem mem_parts_of_mem_turns {x y : Visit} {turn : Turn} (h : .part turn y.record ∈ x.turns) :
    (turn, y) ∈ x.parts := by
  obtain ⟨turn', y', part, eq⟩ := exists_of_mem_turns h
  obtain ⟨rfl, same⟩ := Entry.part.inj eq
  have visit := congrArg Run.visit same
  rw [visit_record, visit_record] at visit
  rwa [visit]

/-- A visit of a run is the visit of the run itself or lies below one of its turns. -/
theorem mem_visits_iff {x : Visit} {place : Place} {run : Run} :
    (place, run) ∈ x.record.visits ↔
      (place = [] ∧ run = x.record) ∨
        ∃ (turn : Turn) (y : Visit) (rest : Place), .part turn y.record ∈ x.turns ∧
          (rest, run) ∈ y.record.visits ∧ place = turn :: rest := by
  rw [visits_record, List.mem_append, List.mem_flatMap, List.mem_singleton, Prod.mk.injEq, or_comm]
  apply or_congr_right
  constructor
  · rintro ⟨entry, turned, mem⟩
    obtain ⟨turn, y, -, rfl⟩ := exists_of_mem_turns turned
    obtain ⟨⟨rest, run⟩, inside, eq⟩ := List.mem_map.mp mem
    cases eq
    exact ⟨turn, y, rest, turned, inside, rfl⟩
  · rintro ⟨turn, y, rest, turned, inside, rfl⟩
    exact ⟨_, turned, List.mem_map.mpr ⟨(rest, run), inside, rfl⟩⟩

/-- The visits of a recorded run are recorded runs themselves. -/
theorem eq_record_of_mem_visits {x : Visit} {place : Place} {run : Run}
    (h : (place, run) ∈ x.record.visits) : run = run.visit.record := by
  obtain ⟨s, v⟩ := x
  induction s using Schema.induction generalizing v place with
  | node kind required refinements ih =>
    rcases mem_visits_iff.mp h with ⟨-, rfl⟩ | ⟨turn, y, rest, turned, inside, -⟩
    · rw [visit_record]
    · exact ih y.node (mem_children_of_mem_parts (mem_parts_of_mem_turns turned)) y.value inside

/-- What the evaluator reports during a run, its visits report, in the order in which they end. -/
theorem reports_record (x : Visit) :
    x.record.reports = x.record.visits.flatMap fun visit => visit.2.own := by
  obtain ⟨s, v⟩ := x
  induction s using Schema.induction generalizing v with
  | node kind required refinements ih =>
    have turns_eq (entry : Entry Run)
        (mem : entry ∈ (Visit.mk ⟨kind, required, refinements⟩ v).turns) :
        Run.traceOf (fun _ => []) entry =
          (Run.visitsOf entry).flatMap fun visit => visit.2.own := by
      obtain ⟨turn, y, part, rfl⟩ := exists_of_mem_turns mem
      rw [Run.visitsOf, List.flatMap_map]
      exact ih y.node (mem_children_of_mem_parts part) y.value
    rw [Run.reports, Run.trace_eq, entries_record, List.flatMap_append,
      Entry.flatMap_traceOf_closing, visits_record, List.flatMap_append, List.flatMap_assoc,
      List.flatMap_congr turns_eq]
    simp

end Visit

end SchemaValidation
