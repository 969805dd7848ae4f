import SchemaValidation.Predicate
import SchemaValidation.Proofs.Nodes
import SchemaValidation.Proofs.Visit

/-!
# The failing path

Where a schema has no unions and its refinements report nothing themselves, what an evaluation
reports is the path to the first rejection.  An accepted value leaves no events.  A rejected one
leaves those of the visits from the first rejected place up to the root, innermost first: the place
itself says why it rejects, unless absence was settled there, and every visit above it reports that
its type check failed, and nothing else.

Places are ordered as they are decided (`Before`), so there is one first rejected place at most.  That
accepted visits have no rejected visits below them, `Leads.accepted`, makes it the place at which the
evaluation stops.
-/

namespace SchemaValidation

/-- `Leads x place above y`: from `x` the turns lead to `y`, by way of the visits `above`, the
innermost first. -/
inductive Leads : Visit → Place → List Visit → Visit → Prop
  | here (x : Visit) : Leads x [] [] x
  | turn {x y z : Visit} {turn : Turn} {place : Place} {above : List Visit}
      (mem : (turn, y) ∈ x.parts) (rest : Leads y place above z) :
      Leads x (turn :: place) (above ++ [x]) z

/-- The order in which places are decided: parts in order of their turns, and each visit after its
parts. -/
inductive Before : Place → Place → Prop
  | inside (turn : Turn) (place : Place) : Before (turn :: place) []
  | turn {a b : Turn} (h : a.Precedes b) (p q : Place) : Before (a :: p) (b :: q)
  | under (a : Turn) {p q : Place} (h : Before p q) : Before (a :: p) (a :: q)

theorem Before.asymm {p q : Place} (h : Before p q) : ¬Before q p := by
  induction h with
  | inside turn place => exact nofun
  | turn first p q =>
    intro h'
    cases h' with
    | turn second => exact first.asymm second
    | under => exact first.asymm first
  | under a _ ih =>
    intro h'
    cases h' with
    | turn second => exact second.asymm second
    | under _ h' => exact ih h'

/-- `y` is the first visit below `x` whose value is rejected. -/
structure FirstRejected (x : Visit) (place : Place) (above : List Visit) (y : Visit) : Prop where
  leads : Leads x place above y
  rejected : y.accepted = false
  first : ∀ {q : Place} {above' : List Visit} {z : Visit}, Leads x q above' z →
    z.accepted = false → q = place ∨ Before place q

namespace Visit

/-- Why a visit rejects whose parts are all accepted, and the events of it. -/
inductive Rejects : Visit → List Event → Prop
  | absent {x : Visit} (settles : x.node.Settles x.value) (required : x.node.required = true) :
      Rejects x []
  | type {x : Visit} (unsettled : ¬x.node.Settles x.value)
      (fails : (Schema.fits x.node.kind x.node.required x.value).result = false)
      (parts : ∀ part ∈ x.parts, part.2.accepted = true) : Rejects x [x.typeRejection]
  | refinement {x : Visit} {index : Nat} (unsettled : ¬x.node.Settles x.value)
      (fits : (Schema.fits x.node.kind x.node.required x.value).result = true)
      (refuses : x.Refuses index) (least : ∀ i, x.Refuses i → index ≤ i) :
      Rejects x [.refinementRejected x.node.kind.name index]

end Visit

/-- A schema without unions, whose refinements report nothing. -/
structure Quiet (s : Schema) : Prop where
  single : s.Everywhere fun t => t.kind.name ≠ .union
  silent : s.Everywhere fun t => ∀ p ∈ t.refinements, ∀ v, (p v).events = []

namespace Quiet

variable {s : Schema}

theorem child (h : Quiet s) {c : Schema} (hc : c ∈ s.kind.children) : Quiet c :=
  ⟨h.single.child hc, h.silent.child hc⟩

theorem part {x y : Visit} {turn : Turn} (h : Quiet x.node) (hy : (turn, y) ∈ x.parts) :
    Quiet y.node := h.child (Visit.mem_children_of_mem_parts hy)

theorem fits_iff {x : Visit} (h : Quiet x.node) :
    (Schema.fits x.node.kind x.node.required x.value).result = true ↔
      x.typed = true ∧ ∀ part ∈ x.parts, part.2.accepted = true := by
  rw [Visit.fits_eq h.single.root]
  split
  next typed =>
    rw [Traced.result_allM, List.all_eq_true]
    exact ⟨fun parts => ⟨typed, parts⟩, fun both => both.2⟩
  next untyped => simp [untyped]

/-- All parts of an accepted visit are accepted. -/
theorem accepted_part {x : Visit} (h : Quiet x.node) (hx : x.accepted = true) :
    ∀ part ∈ x.parts, part.2.accepted = true := by
  by_cases settles : x.node.Settles x.value
  · rw [Visit.parts_of_settles settles]
    intro part mem
    cases mem
  · obtain ⟨admitted, -⟩ := (Schema.accepts_of_not_settles settles).mp hx
    exact (h.fits_iff.mp (Schema.fits_iff.mpr admitted)).2

end Quiet

/-- Below an accepted visit, nothing is rejected. -/
theorem Leads.accepted {x y : Visit} {place : Place} {above : List Visit}
    (h : Leads x place above y) (quiet : Quiet x.node) (hx : x.accepted = true) :
    y.accepted = true := by
  induction h with
  | here x => exact hx
  | turn mem rest ih => exact ih (quiet.part mem) (quiet.accepted_part hx _ mem)

/-- There is one first rejected place at most. -/
theorem FirstRejected.place_eq {x y z : Visit} {p q : Place} {above above' : List Visit}
    (h : FirstRejected x p above y) (h' : FirstRejected x q above' z) : p = q := by
  rcases h.first h'.leads h'.rejected with rfl | before
  · rfl
  · rcases h'.first h.leads h.rejected with rfl | after
    · rfl
    · exact (before.asymm after).elim

/-- A rejected visit whose parts are all accepted comes first. -/
theorem FirstRejected.here {x : Visit} (quiet : Quiet x.node) (hx : x.accepted = false)
    (parts : ∀ part ∈ x.parts, part.2.accepted = true) : FirstRejected x [] [] x := by
  refine ⟨.here x, hx, fun leads hz => ?_⟩
  cases leads with
  | here => exact .inl rfl
  | turn mem rest =>
    rw [rest.accepted (quiet.part mem) (parts _ mem)] at hz
    cases hz

/-- The first rejection below the first rejected part comes first. -/
theorem FirstRejected.turn {x y z : Visit} {turn : Turn} {place : Place} {above : List Visit}
    {before after : List (Turn × Visit)} (quiet : Quiet x.node)
    (split : x.parts = before ++ (turn, y) :: after)
    (accepted : ∀ part ∈ before, part.2.accepted = true) (h : FirstRejected y place above z) :
    FirstRejected x (turn :: place) (above ++ [x]) z := by
  have mem : (turn, y) ∈ x.parts := by
    rw [split]
    exact List.mem_append_cons_self
  refine ⟨.turn mem h.leads, h.rejected, fun leads hz => ?_⟩
  cases leads with
  | here => exact .inr (.inside turn place)
  | @turn _ y' _ turn' place' _ mem' rest =>
    have place : (turn', y') ∈ before ++ (turn, y) :: after := split ▸ mem'
    rcases List.mem_append.mp place with earlier | later
    · rw [rest.accepted (quiet.part mem') (accepted _ earlier)] at hz
      cases hz
    · rcases List.mem_cons.mp later with same | later
      · cases same
        rcases h.first rest hz with rfl | order
        · exact .inl rfl
        · exact .inr (.under turn order)
      · have order := x.pairwise_parts
        rw [split, List.pairwise_append] at order
        exact .inr (.turn ((List.pairwise_cons.mp order.2.1).1 _ later) _ _)

/-! ## Events -/

namespace Visit

variable {x : Visit}

/-- A type check that holds is followed by the refinements. -/
theorem events_of_fits (unsettled : ¬x.node.Settles x.value)
    (fits : (Schema.fits x.node.kind x.node.required x.value).result = true) :
    x.run.events =
      (Schema.fits x.node.kind x.node.required x.value).events ++
        (Schema.refinementsHold x.node.kind.name x.node.refinements x.value).events := by
  rw [Visit.run, Schema.validate_of_not_settles unsettled]
  simp [fits]

/-- A type check that fails is reported and ends the visit. -/
theorem events_of_not_fits (unsettled : ¬x.node.Settles x.value)
    (fails : (Schema.fits x.node.kind x.node.required x.value).result = false) :
    x.run.events =
      (Schema.fits x.node.kind x.node.required x.value).events ++ [x.typeRejection] := by
  rw [Visit.run, Schema.validate_of_not_settles unsettled]
  simp [fails, typeRejection]

end Visit

namespace Quiet

/-- An accepted value leaves no events. -/
theorem events_of_accepted {x : Visit} (h : Quiet x.node) (hx : x.accepted = true) :
    x.run.events = [] := by
  obtain ⟨s, v⟩ := x
  induction s using Schema.induction generalizing v with
  | node kind required refinements ih =>
    by_cases settles : (⟨kind, required, refinements⟩ : Schema).Settles v
    · rw [Visit.run, Schema.validate_of_settles settles]
      rfl
    · obtain ⟨admitted, refined⟩ := (Schema.accepts_of_not_settles settles).mp hx
      have fits := Schema.fits_iff.mpr admitted
      obtain ⟨typed, parts⟩ := h.fits_iff.mp fits
      rw [Visit.events_of_fits settles fits, Schema.events_refinementsHold refined,
        Visit.fits_eq h.single.root, if_pos typed, Traced.events_allM _ parts,
        List.append_eq_nil_iff, List.flatMap_eq_nil_iff, List.flatMap_eq_nil_iff]
      constructor
      · rintro ⟨turn, y⟩ mem
        exact ih y.node (Visit.mem_children_of_mem_parts mem) y.value (h.part mem)
          (parts _ mem)
      · intro p hp
        exact h.silent.root p hp v

/-- The first refinement that does not hold is the only event of the refinements. -/
theorem events_refinements {x : Visit} (h : Quiet x.node)
    (fails : (x.node.refinements.all fun p => (p x.value).result) = false) :
    ∃ index, x.Refuses index ∧ (∀ i, x.Refuses i → index ≤ i) ∧
      (Schema.refinementsHold x.node.kind.name x.node.refinements x.value).events =
        [.refinementRejected x.node.kind.name index] := by
  obtain ⟨before, p, after, split, held, failed⟩ := exists_first fails
  have silent (q : Predicate) (hq : q ∈ before ++ p :: after) : (q x.value).events = [] :=
    h.silent.root q (split ▸ hq) x.value
  obtain ⟨refuses, least⟩ := Visit.refuses_length split held failed
  refine ⟨before.length, refuses, least, ?_⟩
  have quiet : (before.flatMap fun q => (q x.value).events) = [] :=
    List.flatMap_eq_nil_iff.mpr fun q hq => silent q (List.mem_append_left _ hq)
  rw [split, Schema.events_refinementsHold_append held failed, quiet,
    silent p List.mem_append_cons_self]
  rfl

/-- Accepted parts leave no events. -/
theorem flatMap_events {x : Visit} (h : Quiet x.node) {parts : List (Turn × Visit)}
    (sub : parts ⊆ x.parts) (accepted : ∀ part ∈ parts, part.2.accepted = true) :
    (parts.flatMap fun part => part.2.run.events) = [] := by
  refine List.flatMap_eq_nil_iff.mpr ?_
  rintro ⟨turn, y⟩ mem
  exact (h.part (sub mem)).events_of_accepted (accepted _ mem)

/-- A visit that rejects although all of its parts are accepted has a reason of its own. -/
theorem exists_rejects {x : Visit} (h : Quiet x.node) (hx : x.accepted = false)
    (parts : ∀ part ∈ x.parts, part.2.accepted = true) :
    ∃ own, x.Rejects own ∧ x.run.events = own := by
  by_cases settles : x.node.Settles x.value
  · have required : x.node.required = true := by
      by_contra optional
      have accepted : x.accepted = true :=
        (Schema.accepts_of_settles settles).mpr (Bool.eq_false_iff.mpr optional)
      rw [accepted] at hx
      cases hx
    refine ⟨[], .absent settles required, ?_⟩
    rw [Visit.run, Schema.validate_of_settles settles]
    rfl
  · cases fits : (Schema.fits x.node.kind x.node.required x.value).result with
    | false =>
      refine ⟨[x.typeRejection], .type settles fits parts, ?_⟩
      have untyped : ¬x.typed = true := by
        intro typed
        rw [h.fits_iff.mpr ⟨typed, parts⟩] at fits
        cases fits
      rw [Visit.events_of_not_fits settles fits, Visit.fits_eq h.single.root, if_neg untyped]
      rfl
    | true =>
      have fails : (x.node.refinements.all fun p => (p x.value).result) = false := by
        rw [← Bool.not_eq_true, List.all_eq_true]
        intro held
        have accepted : x.accepted = true :=
          (Schema.accepts_of_not_settles settles).mpr ⟨Schema.fits_iff.mp fits, held⟩
        rw [accepted] at hx
        cases hx
      obtain ⟨index, refuses, least, events⟩ := h.events_refinements fails
      refine ⟨_, .refinement settles fits refuses least, ?_⟩
      obtain ⟨typed, -⟩ := h.fits_iff.mp fits
      rw [Visit.events_of_fits settles fits, Visit.fits_eq h.single.root, if_pos typed,
        Traced.events_allM _ parts, h.flatMap_events (List.Subset.refl _) parts, events]
      rfl

/-- A visit with a rejected part adds one event to those of the first such part. -/
theorem events_of_part {x y : Visit} {turn : Turn} {before after : List (Turn × Visit)}
    (h : Quiet x.node) (split : x.parts = before ++ (turn, y) :: after)
    (accepted : ∀ part ∈ before, part.2.accepted = true) (hy : y.accepted = false) :
    x.run.events = y.run.events ++ [x.typeRejection] := by
  have mem : (turn, y) ∈ x.parts := by
    rw [split]
    exact List.mem_append_cons_self
  have unsettled : ¬x.node.Settles x.value := by
    intro settles
    rw [Visit.parts_of_settles settles] at mem
    cases mem
  have typed : x.typed = true := by
    by_contra untyped
    rw [Visit.parts_eq_nil (Bool.eq_false_iff.mpr untyped)] at mem
    cases mem
  have fails : (Schema.fits x.node.kind x.node.required x.value).result = false := by
    rw [← Bool.not_eq_true, h.fits_iff]
    rintro ⟨-, parts⟩
    rw [parts _ mem] at hy
    cases hy
  have sub : before ⊆ x.parts := by
    rw [split]
    exact List.subset_append_left _ _
  have search :=
    Traced.events_allM_append (fun part => part.2.run) (a := (turn, y)) after accepted hy
  rw [Visit.events_of_not_fits unsettled fails, Visit.fits_eq h.single.root, if_pos typed, split,
    search, h.flatMap_events sub accepted, List.nil_append]

/-- The events of a rejected visit are those of the path to the first rejection. -/
theorem exists_firstRejected {x : Visit} (h : Quiet x.node) (hx : x.accepted = false) :
    ∃ place above y own, FirstRejected x place above y ∧ y.Rejects own ∧
      x.run.events = own ++ above.map Visit.typeRejection := by
  obtain ⟨s, v⟩ := x
  induction s using Schema.induction generalizing v with
  | node kind required refinements ih =>
    cases parts : (Visit.mk ⟨kind, required, refinements⟩ v).parts.all fun part =>
        part.2.accepted with
    | true =>
      obtain ⟨own, rejects, events⟩ := h.exists_rejects hx (List.all_eq_true.mp parts)
      refine ⟨[], [], _, own, .here h hx (List.all_eq_true.mp parts), rejects, ?_⟩
      rw [events, List.map_nil, List.append_nil]
    | false =>
      obtain ⟨before, ⟨turn, y⟩, after, split, accepted, rejected⟩ := exists_first parts
      have mem : (turn, y) ∈ (Visit.mk ⟨kind, required, refinements⟩ v).parts := by
        rw [split]
        exact List.mem_append_cons_self
      obtain ⟨place, above, z, own, first, rejects, events⟩ :=
        ih y.node (Visit.mem_children_of_mem_parts mem) y.value (h.part mem) rejected
      refine ⟨turn :: place, _, z, own, first.turn h split accepted, rejects, ?_⟩
      rw [h.events_of_part split accepted rejected, events, List.map_append, List.append_assoc]
      rfl

end Quiet

/-- Where a schema has no unions and its refinements report nothing, an accepted value leaves no
events, and the events of a rejected one are those of the path to the first rejection, innermost
first. -/
theorem Schema.events_validate_eq_path {s : Schema}
    (single : s.Everywhere fun t => t.kind.name ≠ .union)
    (silent : s.Everywhere fun t => ∀ p ∈ t.refinements, ∀ v, (p v).events = []) (v : Value) :
    (s.accepts v = true → (s.validate v).events = []) ∧
      (s.accepts v = false → ∃ place above y own, FirstRejected ⟨s, v⟩ place above y ∧
        y.Rejects own ∧ (s.validate v).events = own ++ above.map Visit.typeRejection) := by
  have quiet : Quiet (Visit.mk s v).node := ⟨single, silent⟩
  exact ⟨quiet.events_of_accepted, quiet.exists_firstRejected⟩

/-- The second element is where this array is rejected. -/
theorem Schema.events_validate_arrayOf_boolean :
    (Schema.blank.arrayOf (Schema.blank.boolean.which (Predicate.boolean id))).accepts
        (.array [.boolean true, .boolean false]) = false ∧
      ∃ place above y own,
        FirstRejected
          ⟨Schema.blank.arrayOf (Schema.blank.boolean.which (Predicate.boolean id)),
            .array [.boolean true, .boolean false]⟩ place above y ∧
        y.Rejects own ∧
        ((Schema.blank.arrayOf (Schema.blank.boolean.which (Predicate.boolean id))).validate
          (.array [.boolean true, .boolean false])).events =
            own ++ above.map Visit.typeRejection := by
  have single :
      (Schema.blank.arrayOf (Schema.blank.boolean.which (Predicate.boolean id))).Everywhere
        fun t => t.kind.name ≠ .union := by
    refine Schema.everywhere_iff.mpr ⟨nofun, List.forall_mem_singleton.mpr ?_⟩
    exact Schema.everywhere_iff.mpr ⟨nofun, nofun⟩
  have silent :
      (Schema.blank.arrayOf (Schema.blank.boolean.which (Predicate.boolean id))).Everywhere
        fun t => ∀ p ∈ t.refinements, ∀ v, (p v).events = [] := by
    refine Schema.everywhere_iff.mpr ⟨nofun, List.forall_mem_singleton.mpr ?_⟩
    exact Schema.everywhere_iff.mpr ⟨List.forall_mem_singleton.mpr fun _ => rfl, nofun⟩
  have rejected : (Schema.blank.arrayOf (Schema.blank.boolean.which (Predicate.boolean id))).accepts
      (.array [.boolean true, .boolean false]) = false := by decide
  exact ⟨rejected, (Schema.events_validate_eq_path single silent _).2 rejected⟩

example : ((Schema.blank.arrayOf (Schema.blank.boolean.which (Predicate.boolean id))).validate
    (.array [.boolean true, .boolean false])).events =
      [.refinementRejected .boolean 0, .typeRejected .array .array] := by decide

end SchemaValidation
