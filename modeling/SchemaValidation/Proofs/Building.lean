import SchemaValidation.Predicate
import SchemaValidation.Schema.Outline
import SchemaValidation.Schema.Position
import SchemaValidation.Schema.Validate

/-!
# Building schemas

A call changes one of the three aspects of a schema, and the aspects do not interfere.  So what a
sequence of calls builds can be read off the sequence aspect by aspect, in whatever way the calls are
mixed: the kind is the last to be declared, the flag falls with the first call to `optional`, and the
refinements are those of the start followed by those that were added, in order.

Each aspect has a lemma for one call and a lemma for a sequence.  `Schema.applyAll_normal_form` puts
them together.
-/

namespace SchemaValidation

namespace Schema

namespace Call

/-- The kind that the call declares. -/
def kind? : Call → Option (Kind Schema)
  | .string => some .string
  | .number => some .number
  | .boolean => some .boolean
  | .object properties => some (.object (NameMap.ofList properties))
  | .anyObject => some (.object NameMap.empty)
  | .arrayOf element => some (.array element)
  | .oneOf alternatives => some (.union alternatives)
  | .optional | .which _ | .refine _ => none

/-- The refinement that the call adds. -/
def predicate? : Call → Option Predicate
  | .which p | .refine p => some p
  | _ => none

/-- The kind that the last of the calls declares, among those that declare one. -/
def lastKind? (calls : List Call) : Option (Kind Schema) := (calls.filterMap kind?).getLast?

/-- The refinements that the calls add, in order. -/
def predicates (calls : List Call) : List Predicate := calls.filterMap predicate?

theorem lastKind?_cons (c : Call) (rest : List Call) :
    lastKind? (c :: rest) = (lastKind? rest).or c.kind? := by
  rw [lastKind?, lastKind?]
  cases declares : c.kind? with
  | none => rw [List.filterMap_cons_none declares, Option.or_none]
  | some kind =>
    rw [List.filterMap_cons_some declares, ← List.singleton_append, List.getLast?_append]
    rfl

theorem predicates_cons (c : Call) (rest : List Call) :
    predicates (c :: rest) = c.predicate?.toList ++ predicates rest := by
  rw [predicates, predicates, List.filterMap_cons]
  cases c.predicate? <;> rfl

/-- Calls before the last that declares a kind have no say in the kind. -/
theorem lastKind?_of_split {before after : List Call} {last : Call} {kind : Kind Schema}
    (declares : last.kind? = some kind) (silent : ∀ c ∈ after, c.kind? = none) :
    lastKind? (before ++ last :: after) = some kind := by
  have none_after : after.filterMap kind? = [] := List.filterMap_eq_nil_iff.mpr silent
  rw [lastKind?, List.filterMap_append, List.filterMap_cons_some declares, none_after,
    List.getLast?_concat]

end Call

variable {s t : Schema}

/-! ## One call -/

theorem kind_apply (s : Schema) (c : Call) : (s.apply c).kind = c.kind?.getD s.kind := by
  cases c <;> rfl

theorem required_apply (s : Schema) (c : Call) :
    (s.apply c).required = true ↔ s.required = true ∧ c ≠ .optional := by
  cases c with
  | optional => simp [apply, optional]
  | _ =>
    apply Iff.symm
    apply and_iff_left
    exact nofun

theorem refinements_apply (s : Schema) (c : Call) :
    (s.apply c).refinements = s.refinements ++ c.predicate?.toList := by
  cases c with
  | which p | refine p => rfl
  | _ => exact (List.append_nil _).symm

/-! ## Sequences of calls -/

theorem applyAll_cons (s : Schema) (c : Call) (rest : List Call) :
    s.applyAll (c :: rest) = (s.apply c).applyAll rest := rfl

/-- The last declaration decides on the kind. -/
theorem kind_applyAll (s : Schema) (calls : List Call) :
    (s.applyAll calls).kind = (Call.lastKind? calls).getD s.kind := by
  induction calls generalizing s with
  | nil => rfl
  | cons c rest ih =>
    rw [applyAll_cons, ih, kind_apply, Call.lastKind?_cons]
    exact (Option.getD_or ..).symm

/-- Once optional, a schema stays so. -/
theorem required_applyAll (s : Schema) (calls : List Call) :
    (s.applyAll calls).required = true ↔ s.required = true ∧ .optional ∉ calls := by
  induction calls generalizing s with
  | nil => simp [applyAll]
  | cons c rest ih =>
    rw [applyAll_cons, ih, required_apply, List.mem_cons, not_or, and_assoc, ne_comm]

/-- Refinements are never lost. -/
theorem refinements_applyAll (s : Schema) (calls : List Call) :
    (s.applyAll calls).refinements = s.refinements ++ Call.predicates calls := by
  induction calls generalizing s with
  | nil => exact (List.append_nil _).symm
  | cons c rest ih =>
    rw [applyAll_cons, ih, refinements_apply, Call.predicates_cons, List.append_assoc]

theorem eq_of_aspects (kind : s.kind = t.kind) (required : s.required = t.required)
    (refinements : s.refinements = t.refinements) : s = t := by
  cases s
  cases t
  cases kind
  cases required
  cases refinements
  rfl

/-- Nothing but the three aspects is left of a sequence of calls. -/
theorem applyAll_congr {calls calls' : List Call}
    (kind : Call.lastKind? calls = Call.lastKind? calls')
    (optional : .optional ∈ calls ↔ .optional ∈ calls')
    (predicates : Call.predicates calls = Call.predicates calls') :
    s.applyAll calls = s.applyAll calls' := by
  have kind_eq : (s.applyAll calls).kind = (s.applyAll calls').kind := by
    rw [kind_applyAll, kind_applyAll, kind]
  have required_eq : (s.applyAll calls).required = (s.applyAll calls').required := by
    rw [Bool.eq_iff_iff, required_applyAll, required_applyAll, optional]
  have refinements_eq : (s.applyAll calls).refinements = (s.applyAll calls').refinements := by
    rw [refinements_applyAll, refinements_applyAll, predicates]
  exact eq_of_aspects kind_eq required_eq refinements_eq

/-- Below the root of a schema is what its kind leads to. -/
theorem node?_cons_congr (h : s.kind = t.kind) (step : Step) (rest : Position) :
    s.node? (step :: rest) = t.node? (step :: rest) := by
  have child_eq : s.child? step = t.child? step := by simp only [child?, h]
  rw [node?, node?, child_eq]

/-- What calls build has the kind that was declared last, is required if it was so before and no
call says otherwise, and has the refinements of before and those of the calls, in order.  So
sequences of calls that agree in this build the same, as far as outlines, undeclared nodes and
evaluations can tell, and all nodes below the root come from the last declaration. -/
theorem applyAll_normal_form (s : Schema) (calls : List Call) :
    (s.applyAll calls).kind = (Call.lastKind? calls).getD s.kind ∧
      ((s.applyAll calls).required = true ↔ s.required = true ∧ .optional ∉ calls) ∧
      (s.applyAll calls).refinements = s.refinements ++ Call.predicates calls ∧
      (∀ calls', Call.lastKind? calls = Call.lastKind? calls' →
        (.optional ∈ calls ↔ .optional ∈ calls') →
        Call.predicates calls = Call.predicates calls' →
          (s.applyAll calls).outline = (s.applyAll calls').outline ∧
            (s.applyAll calls).undeclaredPaths = (s.applyAll calls').undeclaredPaths ∧
            ∀ v, (s.applyAll calls).validate v = (s.applyAll calls').validate v) ∧
      ∀ before last after kind, calls = before ++ last :: after → last.kind? = some kind →
        (∀ c ∈ after, c.kind? = none) → ∀ step rest,
          (s.applyAll calls).node? (step :: rest) = (blank.declare kind).node? (step :: rest) := by
  refine ⟨kind_applyAll s calls, required_applyAll s calls, refinements_applyAll s calls, ?_, ?_⟩
  · intro calls' kind optional predicates
    rw [applyAll_congr kind optional predicates]
    exact ⟨rfl, rfl, fun _ => rfl⟩
  · rintro before last after kind rfl declares silent step rest
    apply node?_cons_congr
    rw [kind_applyAll, Call.lastKind?_of_split declares silent]
    rfl

/-- The number and the properties that were declared first are gone, and neither the place of
`optional` nor that of the refinement matters. -/
theorem applyAll_normal_form_string :
    ((blank.applyAll [.number, .optional, .object [("a", blank)], .string,
          .which (.string (· ≠ ""))]).outline =
        (blank.applyAll [.refine (.string (· ≠ "")), .string, .optional]).outline ∧
      ∀ v, (blank.applyAll [.number, .optional, .object [("a", blank)], .string,
            .which (.string (· ≠ ""))]).validate v =
          (blank.applyAll [.refine (.string (· ≠ "")), .string, .optional]).validate v) ∧
    (blank.applyAll [.number, .optional, .object [("a", blank)], .string,
        .which (.string (· ≠ ""))]).node? [.property "a"] =
      (blank.declare .string).node? [.property "a"] := by
  have normal := applyAll_normal_form blank [.number, .optional, .object [("a", blank)], .string,
    .which (.string (· ≠ ""))]
  have same := normal.2.2.2.1 [.refine (.string (· ≠ "")), .string, .optional] rfl (by simp) rfl
  have below := normal.2.2.2.2 [.number, .optional, .object [("a", blank)]] .string
    [.which (.string (· ≠ ""))] .string rfl rfl (List.forall_mem_singleton.mpr rfl)
  exact ⟨⟨same.1, same.2.2⟩, below _ _⟩

end Schema

end SchemaValidation
