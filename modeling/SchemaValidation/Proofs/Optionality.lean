import SchemaValidation.Proofs.Agreement
import SchemaValidation.Proofs.Places

/-!
# Optionality

The flag of a node says what becomes of an absent value there, and nothing else.  It is read in
three places: where absence is settled, in the type check of an array and in that of a union.  So
the flags may change at any number of nodes at once, and as long as an evaluation does not bring an
absent value to any of them, verdict and events stay as they are (`Schema.validate_eq_of_flags`).

Only of the visits that the one evaluation makes is anything known.  That is enough, because a
search that stops early is determined by the parts that it turns to (`Visit.search_congr_of_turns`).
-/

namespace SchemaValidation

/-! ## Searches by what they turn to -/

section Search

variable {α β : Type} {as : List α} {bs : List β} {record : α → Recorded Bool}
  {p : α → Traced Bool} {q : β → Traced Bool} {turns : List (Entry Run)}

/-- Two searches are the same if they do the same on the elements to which one of them comes. -/
theorem allM_congr_of_entries (verdict : ∀ a, (record a).result = (p a).result)
    (h : List.Forall₂ (fun a b => (record a).entries ⊆ turns → p a = q b) as bs)
    (sub : (as.allM record).entries ⊆ turns) : as.allM p = bs.allM q := by
  induction h with
  | nil => rfl
  | @cons a b as bs first _ ih =>
    rw [Recorded.allM_cons, Recorded.entries_both, verdict a] at sub
    obtain ⟨here, later⟩ := List.append_subset.mp sub
    rw [Traced.allM_cons, Traced.allM_cons, ← first here]
    cases holds : (p a).result with
    | false => rw [Traced.both_of_fails holds, Traced.both_of_fails holds]
    | true =>
      rw [if_pos holds] at later
      rw [ih later]

theorem anyM_congr_of_entries (verdict : ∀ a, (record a).result = (p a).result)
    (h : List.Forall₂ (fun a b => (record a).entries ⊆ turns → p a = q b) as bs)
    (sub : (as.anyM record).entries ⊆ turns) : as.anyM p = bs.anyM q := by
  induction h with
  | nil => rfl
  | @cons a b as bs first _ ih =>
    rw [Recorded.anyM_cons, Recorded.entries_either, verdict a] at sub
    obtain ⟨here, later⟩ := List.append_subset.mp sub
    rw [Traced.anyM_cons, Traced.anyM_cons, ← first here]
    cases holds : (p a).result with
    | true => rw [Traced.either_of_holds holds, Traced.either_of_holds holds]
    | false =>
      rw [holds, if_neg Bool.false_ne_true] at later
      rw [ih later]

end Search

namespace Visit

/-- The type checks of two nodes of one kind are the same if the parts are to which one of them
turns. -/
theorem search_congr_of_turns {x y : Visit} (name : x.node.kind.name = y.node.kind.name)
    (typed : x.typed = y.typed)
    (absent : (!x.node.required && x.value.isAbsent) = (!y.node.required && y.value.isAbsent))
    (parts : List.Forall₂ (fun a b => .part a.1 a.2.record ∈ x.turns → a.2.run = b.2.run)
      x.parts y.parts) :
    (x.search fun part => part.2.run) = y.search fun part => part.2.run := by
  have verdict (part : Turn × Visit) :
      (Recorded.part part.1 part.2.record).result = part.2.run.result := part.2.verdict_record
  have turned : List.Forall₂ (fun a b => (Recorded.part a.1 a.2.record).entries ⊆ x.turns →
      a.2.run = b.2.run) x.parts y.parts :=
    parts.imp fun a b same sub => same (sub (List.mem_singleton_self _))
  have turns : x.turns = (x.search fun part => Recorded.part part.1 part.2.record).entries := by
    rw [Visit.turns, recordFits_eq_search]
  rw [search] at turns
  rw [search, search, ← name, ← typed, ← absent]
  split
  next union =>
    rw [if_pos union] at turns
    split
    · rfl
    next present =>
      rw [if_neg present] at turns
      exact anyM_congr_of_entries verdict turned fun _ mem => turns ▸ mem
  next other =>
    rw [if_neg other] at turns
    split
    next typed =>
      rw [if_pos typed] at turns
      exact allM_congr_of_entries verdict turned fun _ mem => turns ▸ mem
    · rfl

/-- The parts that are reached by one step from the node. -/
def branch (x : Visit) : Step × Schema → List (Turn × Visit)
  | (.property name, child) =>
    if x.value.typeName = .object ∨ x.value.typeName = .array then
      [(.property name, ⟨child, x.value.get name⟩)]
    else []
  | (.element, element) =>
    (x.value.items?.getD []).zipIdx.map fun (item, index) => (.item index, ⟨element, item⟩)
  | (.alternative index, alternative) =>
    if !x.node.required && x.value.isAbsent then [] else [(.alternative index, ⟨alternative, x.value⟩)]

theorem parts_eq_flatMap (x : Visit) : x.parts = x.node.kind.steps.flatMap x.branch := by
  obtain ⟨⟨kind, required, refinements⟩, v⟩ := x
  cases kind with
  | unset | string | number | boolean => rfl
  | object properties =>
    simp only [parts, Kind.steps, List.flatMap_map, branch]
    split
    · exact List.map_eq_flatMap
    · exact (List.flatMap_eq_nil_iff.mpr fun _ _ => rfl).symm
  | array element =>
    simp only [Kind.steps, List.flatMap_singleton]
    rfl
  | union alternatives =>
    simp only [parts, Kind.steps, List.flatMap_map, branch]
    split
    · exact (List.flatMap_eq_nil_iff.mpr fun _ _ => rfl).symm
    · exact List.map_eq_flatMap

end Visit

/-! ## Schemas that differ in their flags -/

namespace Schema

/-- What a node is, apart from its flag and its children. -/
def frame (s : Schema) : KindName × List Predicate := (s.kind.name, s.refinements)

/-- The schemas have the same positions, with nodes of the same kinds and the same refinements.  The
flags may differ at all of them. -/
def SameButFlags (s t : Schema) : Prop :=
  ∀ p, (s.node? p).map frame = (t.node? p).map frame

/-- The flag of the node at a position. -/
def flag? (s : Schema) (p : Position) : Option Bool := (s.node? p).map (·.required)

variable {s t : Schema} {v : Value}

namespace SameButFlags

theorem frame_eq (h : s.SameButFlags t) : s.frame = t.frame := Option.some.inj (h [])

theorem name_eq (h : s.SameButFlags t) : s.kind.name = t.kind.name := congrArg Prod.fst h.frame_eq

theorem refinements_eq (h : s.SameButFlags t) : s.refinements = t.refinements :=
  congrArg Prod.snd h.frame_eq

/-- The same steps lead from the nodes, in the same order, to children that differ in their flags
again. -/
theorem steps (h : s.SameButFlags t) :
    List.Forall₂ (fun a b => a.1 = b.1 ∧ a.2.SameButFlags b.2) s.kind.steps t.kind.steps :=
  forall₂_steps_iff.mpr (agreeIn_iff.mp h).2

theorem optional (s : Schema) : s.SameButFlags s.optional := by
  intro p
  cases p with
  | nil => rfl
  | cons step rest => rfl

variable (flag : v = .absent → s.required = t.required)

include flag

/-- The flags are read together with the absence of the value. -/
theorem optional_eq : (!s.required && v.isAbsent) = (!t.required && v.isAbsent) := by
  cases absent : v.isAbsent with
  | false => rw [Bool.and_false, Bool.and_false]
  | true => rw [flag (Value.isAbsent_iff.mp absent)]

theorem typed_eq (h : s.SameButFlags t) : Visit.typed ⟨s, v⟩ = Visit.typed ⟨t, v⟩ := by
  have name := h.name_eq
  have steps := h.steps.length_eq
  have optional := optional_eq flag
  obtain ⟨kind, required, refinements⟩ := s
  obtain ⟨kind', required', refinements'⟩ := t
  cases kind <;> cases kind' <;> cases name
  case object.object p q =>
    have empty : p.isEmpty = q.isEmpty := by
      cases p <;> cases q <;> first | rfl | cases steps
    simp only [Visit.typed, empty]
  case array.array => exact congrArg (decide (v.typeName = .array) || ·) optional
  all_goals rfl

/-- The type checks have the same parts, to nodes that differ in their flags again. -/
theorem parts (h : s.SameButFlags t) :
    List.Forall₂ (fun a b => a.1 = b.1 ∧ a.2.value = b.2.value ∧ a.2.node.SameButFlags b.2.node)
      (Visit.mk s v).parts (Visit.mk t v).parts := by
  rw [Visit.parts_eq_flatMap, Visit.parts_eq_flatMap]
  refine List.rel_flatMap h.steps ?_
  rintro ⟨step, c⟩ ⟨step', d⟩ ⟨rfl, same⟩
  cases step with
  | property name =>
    simp only [Visit.branch]
    split
    · exact .cons ⟨rfl, rfl, same⟩ .nil
    · exact .nil
  | element =>
    refine List.forall₂_map_left_iff.mpr (List.forall₂_map_right_iff.mpr ?_)
    exact List.forall₂_same.mpr fun _ _ => ⟨rfl, rfl, same⟩
  | alternative index =>
    simp only [Visit.branch, optional_eq flag]
    split
    · exact .nil
    · exact .cons ⟨rfl, rfl, same⟩ .nil

end SameButFlags

theorem flag?_cons {c : Schema} {step : Step} (h : s.child? step = some c) (rest : Position) :
    s.flag? (step :: rest) = c.flag? rest := by
  rw [flag?, flag?, node?_cons h]

/-- Schemas that differ in their flags evaluate a value alike if none of the visits that the one
makes is to the absent value at a node where they differ. -/
theorem validate_congr_of_flags (h : s.SameButFlags t)
    (agree : ∀ place run, (place, run) ∈ (s.record v).visits → run.visit.value = .absent →
      s.flag? place.position = t.flag? place.position) : s.validate v = t.validate v := by
  induction s using Schema.induction generalizing t v with
  | node kind required refinements ih =>
    have flag : v = .absent → required = t.required := by
      intro absent
      have root := agree [] _ (Visit.mem_visits_record ⟨⟨kind, required, refinements⟩, v⟩)
      rw [Visit.visit_record] at root
      exact Option.some.inj (root absent)
    have parts : List.Forall₂ (fun a b =>
        .part a.1 a.2.record ∈ (Visit.mk ⟨kind, required, refinements⟩ v).turns →
          a.2.run = b.2.run)
        (Visit.mk ⟨kind, required, refinements⟩ v).parts (Visit.mk t v).parts := by
      have matched := List.forall₂_iff_zip.mp (h.parts flag)
      refine List.forall₂_iff_zip.mpr ⟨matched.1, ?_⟩
      rintro ⟨turn, x⟩ ⟨turn', y⟩ both turned
      obtain ⟨hx, hy⟩ := List.of_mem_zip both
      obtain ⟨rfl, value, same⟩ := matched.2 both
      have run : x.node.validate x.value = y.node.validate x.value := by
        apply ih x.node (Visit.mem_children_of_mem_parts hx) same
        intro place run visited absent
        rw [← flag?_cons (Visit.child?_of_mem_parts hx), ← flag?_cons (Visit.child?_of_mem_parts hy)]
        exact agree (turn :: place) run
          (Visit.mem_visits_iff.mpr (.inr ⟨turn, x, place, turned, visited, rfl⟩)) absent
      rw [Visit.run, Visit.run, run, value]
    apply validate_congr_of_fits h.name_eq flag h.refinements_eq
    rw [Visit.fits_eq_search ⟨⟨kind, required, refinements⟩, v⟩, Visit.fits_eq_search ⟨t, v⟩]
    exact Visit.search_congr_of_turns h.name_eq (h.typed_eq flag)
      (SameButFlags.optional_eq flag) parts

/-- Flags may be changed at any number of nodes, and if no visit is to the absent value at one of
them, verdict and events are the same.  So a present value cannot tell whether the schema is
optional. -/
theorem validate_eq_of_flags (s : Schema) (v : Value) :
    (s.record v).outcome = s.validate v ∧
      (∀ t, s.SameButFlags t →
        (∀ place run, (place, run) ∈ (s.record v).visits →
          s.flag? place.position ≠ t.flag? place.position → run.visit.value ≠ .absent) →
        t.validate v = s.validate v) ∧
      (v ≠ .absent → s.optional.validate v = s.validate v) := by
  refine ⟨Visit.outcome_record ⟨s, v⟩, ?_, ?_⟩
  · intro t same present
    refine (validate_congr_of_flags same fun place run visited absent => ?_).symm
    by_contra differ
    exact present place run visited differ absent
  · intro present
    refine (validate_congr_of_flags (SameButFlags.optional s) fun place run visited absent => ?_).symm
    rcases Visit.mem_visits_iff (x := ⟨s, v⟩).mp visited with ⟨rfl, rfl⟩ | ⟨_, _, _, _, _, rfl⟩
    · rw [Visit.visit_record] at absent
      exact (present absent).elim
    · -- below the root the flags are those of the same nodes
      rfl

/-- The array becomes optional, and so does an alternative at which the absent element does not
arrive. -/
theorem validate_eq_of_flags_arrayOf :
    (blank.arrayOf (blank.oneOf [blank.string, blank.number.optional, blank.boolean])).SameButFlags
      (blank.arrayOf
        (blank.oneOf [blank.string, blank.number.optional, blank.boolean.optional])).optional ∧
    (∀ place run, (place, run) ∈
      ((blank.arrayOf (blank.oneOf [blank.string, blank.number.optional, blank.boolean])).record
        (.array [.boolean true, .absent])).visits →
      (blank.arrayOf (blank.oneOf [blank.string, blank.number.optional, blank.boolean])).flag?
          place.position ≠
        (blank.arrayOf (blank.oneOf
          [blank.string, blank.number.optional, blank.boolean.optional])).optional.flag?
            place.position →
      run.visit.value ≠ .absent) ∧
    (blank.arrayOf (blank.oneOf
        [blank.string, blank.number.optional, blank.boolean.optional])).optional.validate
          (.array [.boolean true, .absent]) =
      (blank.arrayOf (blank.oneOf [blank.string, blank.number.optional, blank.boolean])).validate
        (.array [.boolean true, .absent]) ∧
    (blank.string.optional).validate .null = blank.string.validate .null := by
  have same : (blank.arrayOf (blank.oneOf
      [blank.string, blank.number.optional, blank.boolean])).SameButFlags
        (blank.arrayOf (blank.oneOf
          [blank.string, blank.number.optional, blank.boolean.optional])).optional := by
    intro p
    rcases p with _ | ⟨_ | _ | _, _ | ⟨_ | _ | (_ | _ | _ | _), _ | ⟨_, _⟩⟩⟩ <;> rfl
  have present : ∀ place run, (place, run) ∈
      ((blank.arrayOf (blank.oneOf [blank.string, blank.number.optional, blank.boolean])).record
        (.array [.boolean true, .absent])).visits →
      (blank.arrayOf (blank.oneOf [blank.string, blank.number.optional, blank.boolean])).flag?
          place.position ≠
        (blank.arrayOf (blank.oneOf
          [blank.string, blank.number.optional, blank.boolean.optional])).optional.flag?
            place.position →
      run.visit.value ≠ .absent := by
    intro place run visited differ absent
    have made : ((blank.arrayOf (blank.oneOf
        [blank.string, blank.number.optional, blank.boolean])).record
          (.array [.boolean true, .absent])).visits.map (fun x => (x.1, x.2.visit.value)) =
        [([.item 0, .alternative 0], .boolean true), ([.item 0, .alternative 1], .boolean true),
          ([.item 0, .alternative 2], .boolean true), ([.item 0], .boolean true),
          ([.item 1, .alternative 0], .absent), ([.item 1, .alternative 1], .absent),
          ([.item 1], .absent), ([], .array [.boolean true, .absent])] := rfl
    have mem : (place, run.visit.value) ∈ _ := made ▸ List.mem_map_of_mem visited
    rw [absent] at mem
    simp only [List.mem_cons, Prod.mk.injEq, List.not_mem_nil, reduceCtorEq, and_true, and_false,
      or_false, false_or] at mem
    rcases mem with rfl | rfl | rfl <;> exact differ rfl
  obtain ⟨-, flags, -⟩ := validate_eq_of_flags
    (blank.arrayOf (blank.oneOf [blank.string, blank.number.optional, blank.boolean]))
    (.array [.boolean true, .absent])
  exact ⟨same, present, flags _ same present, (validate_eq_of_flags blank.string .null).2.2 nofun⟩

end Schema

end SchemaValidation
