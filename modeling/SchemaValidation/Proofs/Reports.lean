import SchemaValidation.Predicate
import SchemaValidation.Proofs.Record

/-!
# Reports of rejections

Every visit that rejects its value, unless absence was settled there, reports one event of its own,
after all else that happened during it: that its type check failed, or which refinement was the
first not to hold.  No other visit reports anything.  With unions an accepted value may still leave
reports, those of alternatives that were tried in vain, and predicates may report what they like in
between.

The law of a single visit is one of its closing, `Visit.closes`.  It carries over to all visits of a
run because they are recorded alike, and then only the counting is left.
-/

namespace SchemaValidation

namespace Visit

/-- Why a visit rejects that has not settled. -/
inductive Reason (x : Visit) : Event → Prop
  | type (fails : (Schema.fits x.node.kind x.node.required x.value).result = false) :
      Reason x x.typeRejection
  | refinement {index : Nat}
      (fits : (Schema.fits x.node.kind x.node.required x.value).result = true)
      (refuses : x.Refuses index) (least : ∀ i, x.Refuses i → index ≤ i) :
      Reason x (.refinementRejected x.node.kind.name index)

variable {x : Visit}

namespace Closes

variable {trials : List Trial} {reports : List Event}

/-- Only a visit that rejects has something to report, and not where absence is settled. -/
theorem rejected_of_reports (h : x.Closes trials reports) (reported : reports ≠ []) :
    ¬x.node.Settles x.value ∧ x.accepted = false := by
  cases h with
  | settled | held => exact (reported rfl).elim
  | type unsettled fails => exact ⟨unsettled, by rw [accepted_eq unsettled, fails, Bool.false_and]⟩
  | @refused before after p unsettled fits split held failed =>
    have refused : (x.node.refinements.all fun q => (q x.value).result) = false :=
      List.all_eq_false.mpr ⟨p, by simp [split], by simp [failed]⟩
    exact ⟨unsettled, by rw [accepted_eq unsettled, refused, Bool.and_false]⟩

/-- Such a visit reports why it rejects. -/
theorem exists_reason (h : x.Closes trials reports) (unsettled : ¬x.node.Settles x.value)
    (rejected : x.accepted = false) : ∃ event, reports = [event] ∧ x.Reason event := by
  cases h with
  | settled settles => exact (unsettled settles).elim
  | type _ fails => exact ⟨_, rfl, .type fails⟩
  | held _ fits held =>
    rw [accepted_eq unsettled, fits, List.all_eq_true.mpr held] at rejected
    cases rejected
  | refused _ fits split held failed =>
    obtain ⟨refuses, least⟩ := refuses_length split held failed
    exact ⟨_, rfl, .refinement fits refuses least⟩

end Closes

end Visit

namespace Run

/-- The visit rejects, and not because absence is settled. -/
def rejects (run : Run) : Bool := !run.verdict && !decide (run.visit.node.Settles run.visit.value)

/-- The visit reports the event, and reports it last. -/
structure Reports (run : Run) (event : Event) : Prop where
  own : run.own = [event]
  entry : run.entries.getLast? = some (.report event)
  last : run.events.getLast? = some event
  reason : run.visit.Reason event

end Run

namespace Visit

/-- A visit that accepts reports nothing, nor does one at which absence is settled. -/
theorem own_eq_nil {x : Visit} (h : x.accepted = true ∨ x.node.Settles x.value) :
    x.record.own = [] := by
  by_contra reported
  obtain ⟨unsettled, rejected⟩ := x.closes.rejected_of_reports reported
  rcases h with accepted | settles
  · rw [accepted] at rejected
    cases rejected
  · exact unsettled settles

/-- Any other visit reports once. -/
theorem exists_reports {x : Visit} (rejected : x.accepted = false)
    (unsettled : ¬x.node.Settles x.value) : ∃ event, x.record.Reports event := by
  obtain ⟨event, own, reason⟩ := x.closes.exists_reason unsettled rejected
  obtain ⟨before, entries⟩ : ∃ before, x.record.entries = before ++ [.report event] :=
    ⟨_, by rw [entries_record, own, Entry.closing, ← List.append_assoc]; rfl⟩
  refine ⟨event, own, ?_, ?_, ?_⟩
  · rw [entries, List.getLast?_concat]
  · rw [Run.events, Run.trace_eq, entries, List.flatMap_append]
    exact List.getLast?_concat
  · rw [visit_record]
    exact reason

theorem length_own (x : Visit) : x.record.own.length = if x.record.rejects then 1 else 0 := by
  rw [Run.rejects, verdict_record, visit_record]
  cases verdict : x.accepted with
  | true => rw [own_eq_nil (.inl verdict)]; rfl
  | false =>
    by_cases settles : x.node.Settles x.value
    · rw [own_eq_nil (.inr settles)]
      simp [settles]
    · obtain ⟨event, reports⟩ := exists_reports verdict settles
      rw [reports.own]
      simp [settles]

/-- Of lists of at most one element each, as many elements come together as lists have one. -/
theorem length_flatMap_of_single {α β : Type} {f : α → List β} {has : α → Bool} {as : List α}
    (h : ∀ a ∈ as, (f a).length = if has a then 1 else 0) :
    (as.flatMap f).length = as.countP has := by
  induction as with
  | nil => rfl
  | cons a as ih =>
    rw [List.flatMap_cons, List.length_append, h a List.mem_cons_self,
      ih fun b hb => h b (List.mem_cons_of_mem a hb), List.countP_cons, Nat.add_comm]

/-- There are as many reports as visits that reject. -/
theorem length_reports (x : Visit) :
    x.record.reports.length = x.record.visits.countP fun visit => visit.2.rejects := by
  have single : ∀ visit ∈ x.record.visits,
      visit.2.own.length = if visit.2.rejects then 1 else 0 := by
    rintro ⟨place, run⟩ mem
    have eq : run = run.visit.record := eq_record_of_mem_visits mem
    rw [eq]
    exact length_own run.visit
  rw [reports_record]
  exact length_flatMap_of_single single

end Visit

/-- Of all visits that an evaluation makes, whatever its refinements report, those that accept
report nothing of their own, nor do those at which absence is settled, and each of the others
reports once, at its end, why it rejects.  So there are as many reports as such visits, and the last
event of a rejected evaluation is the report of the root. -/
theorem Schema.reports_once (s : Schema) (v : Value) :
    (s.record v).outcome = s.validate v ∧
      (∀ place run, (place, run) ∈ (s.record v).visits →
        run.outcome = run.visit.run ∧
        (run.verdict = true ∨ run.visit.node.Settles run.visit.value → run.own = []) ∧
        (run.verdict = false → ¬run.visit.node.Settles run.visit.value →
          ∃ event, run.Reports event)) ∧
      (s.record v).reports.length = (s.record v).visits.countP (fun visit => visit.2.rejects) ∧
      (s.accepts v = false → ¬s.Settles v →
        ∃ event, (s.validate v).events.getLast? = some event ∧ Visit.Reason ⟨s, v⟩ event) := by
  refine ⟨Visit.outcome_record ⟨s, v⟩, fun place run mem => ?_, Visit.length_reports ⟨s, v⟩,
    fun rejected unsettled => ?_⟩
  · have recorded : run = run.visit.record := Visit.eq_record_of_mem_visits (x := ⟨s, v⟩) mem
    obtain ⟨x, rfl⟩ : ∃ x : Visit, run = x.record := ⟨_, recorded⟩
    rw [Visit.visit_record, Visit.verdict_record]
    exact ⟨x.outcome_record, Visit.own_eq_nil, Visit.exists_reports⟩
  · obtain ⟨event, reports⟩ := Visit.exists_reports (x := ⟨s, v⟩) rejected unsettled
    have events : (Visit.mk s v).record.events = (s.validate v).events :=
      congrArg Traced.events (Visit.outcome_record ⟨s, v⟩)
    refine ⟨event, events ▸ reports.last, ?_⟩
    have reason := reports.reason
    rwa [Visit.visit_record] at reason

/-- Two alternatives are tried in vain, the second of which notes what it sees. -/
theorem Schema.reports_once_oneOf :
    (([Turn.alternative 1],
        (Visit.mk (blank.boolean.which (.noting "seen" (.boolean id))) (.boolean false)).record) ∈
      ((blank.oneOf [blank.string, blank.boolean.which (.noting "seen" (.boolean id))]).record
        (.boolean false)).visits ∧
      ∃ event, (Visit.mk (blank.boolean.which (.noting "seen" (.boolean id)))
        (.boolean false)).record.Reports event) ∧
    (blank.oneOf [blank.string, blank.boolean.which (.noting "seen" (.boolean id))]).accepts
      (.boolean false) = false ∧
    ¬(blank.oneOf [blank.string, blank.boolean.which (.noting "seen" (.boolean id))]).Settles
      (.boolean false) ∧
    ∃ event, ((blank.oneOf [blank.string,
        blank.boolean.which (.noting "seen" (.boolean id))]).validate
          (.boolean false)).events.getLast? = some event ∧
      Visit.Reason ⟨blank.oneOf [blank.string,
        blank.boolean.which (.noting "seen" (.boolean id))], .boolean false⟩ event := by
  have law := reports_once
    (blank.oneOf [blank.string, blank.boolean.which (.noting "seen" (.boolean id))]) (.boolean false)
  have visited : ([Turn.alternative 1],
        (Visit.mk (blank.boolean.which (.noting "seen" (.boolean id))) (.boolean false)).record) ∈
      ((blank.oneOf [blank.string, blank.boolean.which (.noting "seen" (.boolean id))]).record
        (.boolean false)).visits := .tail _ (.head _)
  have rejected : (blank.oneOf [blank.string,
      blank.boolean.which (.noting "seen" (.boolean id))]).accepts (.boolean false) = false := by
    decide
  have unsettled : ¬(blank.oneOf [blank.string,
      blank.boolean.which (.noting "seen" (.boolean id))]).Settles (.boolean false) := nofun
  exact ⟨⟨visited, (law.2.1 _ _ visited).2.2 rfl (by decide)⟩, rejected, unsettled,
    law.2.2.2 rejected unsettled⟩

example : ((Schema.blank.oneOf [Schema.blank.string,
    Schema.blank.boolean.which (.noting "seen" (.boolean id))]).validate (.boolean false)).events =
      [.typeRejected .string .boolean, .noted "seen" .boolean, .refinementRejected .boolean 0,
        .typeRejected .union .boolean] := by decide

end SchemaValidation
