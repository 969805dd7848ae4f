import SchemaValidation.Proofs.Undeclared

/-!
# Agreement of schemas

Two schemas agree in something if they have the same positions and it is the same of the nodes at
each of them.  What is compared of a node is arbitrary: its kind, its refinements, its looks.

Agreement goes down one step at a time (`Schema.agreeIn_iff`), so it is shown by induction over one
of the schemas.  The steps from two nodes can be compared one by one or as lists in order
(`Schema.forall₂_steps_iff`).
-/

namespace SchemaValidation

theorem exists_mem_of_forall₂ {α β : Type} {R : α → β → Prop} {as : List α} {bs : List β}
    (h : List.Forall₂ R as bs) {a : α} (mem : a ∈ as) : ∃ b ∈ bs, R a b := by
  induction h with
  | nil => cases mem
  | cons first _ ih =>
    rcases List.mem_cons.mp mem with rfl | mem
    · exact ⟨_, List.mem_cons_self, first⟩
    · obtain ⟨b, hb, related⟩ := ih mem
      exact ⟨b, List.mem_cons_of_mem _ hb, related⟩

namespace Schema

variable {s t : Schema}

theorem mem_map_fst_steps_iff {step : Step} :
    step ∈ s.kind.steps.map Prod.fst ↔ (s.child? step).isSome := by
  simp [mem_steps_iff, Option.isSome_iff_exists]

/-- Steps are listed in strict order, so they are the same lists if the same steps can be taken. -/
theorem map_fst_steps_eq (h : ∀ step, (s.child? step).isSome = (t.child? step).isSome) :
    s.kind.steps.map Prod.fst = t.kind.steps.map Prod.fst := by
  have order (s : Schema) : (s.kind.steps.map Prod.fst).Pairwise (· < ·) :=
    List.pairwise_map.mpr s.kind.pairwise_steps
  refine (order s).eq_of_mem_iff (order t) fun step => ?_
  rw [mem_map_fst_steps_iff, mem_map_fst_steps_iff, h]

/-- The children are related one by one in order if they are related wherever a step leads. -/
theorem forall₂_steps_iff {R : Schema → Schema → Prop} :
    List.Forall₂ (fun a b => a.1 = b.1 ∧ R a.2 b.2) s.kind.steps t.kind.steps ↔
      ∀ step, Option.Rel R (s.child? step) (t.child? step) := by
  constructor
  · intro h step
    cases hc : s.child? step with
    | some c =>
      obtain ⟨⟨_, d⟩, mem, rfl, related⟩ := exists_mem_of_forall₂ h (mem_steps_iff.mpr hc)
      rw [mem_steps_iff.mp mem]
      exact .some related
    | none =>
      cases hd : t.child? step with
      | none => exact .none
      | some d =>
        obtain ⟨⟨_, c⟩, mem, rfl, related⟩ := exists_mem_of_forall₂ h.flip (mem_steps_iff.mpr hd)
        rw [mem_steps_iff.mp mem] at hc
        cases hc
  · intro h
    have same := map_fst_steps_eq fun step => isSome_eq_of_optionRel (h step)
    rw [← List.forall₂_eq_eq_eq, List.forall₂_map_left_iff, List.forall₂_map_right_iff,
      List.forall₂_iff_zip] at same
    refine List.forall₂_iff_zip.mpr ⟨same.1, ?_⟩
    rintro ⟨step, c⟩ ⟨step', d⟩ both
    obtain rfl : step = step' := same.2 both
    obtain ⟨hc, hd⟩ := List.of_mem_zip both
    have related := h step
    rw [mem_steps_iff.mp hc, mem_steps_iff.mp hd] at related
    cases related with
    | some related => exact ⟨rfl, related⟩

/-- The schemas have the same positions, and `f` says the same of the nodes at each of them. -/
def AgreeIn {α : Type} (f : Schema → α) (s t : Schema) : Prop :=
  ∀ p, (s.node? p).map f = (t.node? p).map f

theorem agreeIn_iff {α : Type} {f : Schema → α} :
    s.AgreeIn f t ↔ f s = f t ∧ ∀ step, Option.Rel (AgreeIn f) (s.child? step) (t.child? step) := by
  constructor
  · intro h
    refine ⟨Option.some.inj (h []), fun step => ?_⟩
    have below (rest : Position) := h (step :: rest)
    simp only [node?] at below
    generalize s.child? step = x, t.child? step = y at below
    cases x with
    | none =>
      cases y with
      | none => exact .none
      | some d => cases below []
    | some c =>
      cases y with
      | none => cases below []
      | some d => exact .some below
  · rintro ⟨root, children⟩ p
    cases p with
    | nil => exact congrArg some root
    | cons step rest =>
      have child := children step
      rw [node?, node?]
      generalize s.child? step = x, t.child? step = y at child
      cases child with
      | none => rfl
      | some agree => exact agree rest

end Schema

end SchemaValidation
