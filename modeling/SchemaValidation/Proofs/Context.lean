import SchemaValidation.Proofs.Acceptance
import SchemaValidation.Schema.Position

/-!
# Contexts

A context is a schema with a hole, which stands anywhere below object properties, array elements and
union alternatives; the siblings, flags and refinements around the hole are arbitrary.  The hole may
stand for the node at any position of a schema (`Context.exists_fill_eq`).

A schema reads the verdicts of its children and nothing else of them, so a context accepts more the
more the schema in its hole accepts (`Context.accepts_mono`).  Schemas of any two kinds that accept
the same values are therefore interchangeable in every context (`Context.accepts_fill_congr`).
-/

namespace SchemaValidation

/-- A schema with a hole. -/
inductive Context where
  | hole
  | property (siblings : NameMap Schema) (name : String) (free : siblings.get? name = none)
      (inner : Context) (required : Bool) (refinements : List Predicate)
  | element (inner : Context) (required : Bool) (refinements : List Predicate)
  | alternative (before : List Schema) (inner : Context) (after : List Schema) (required : Bool)
      (refinements : List Predicate)

namespace Context

/-- The schema with `s` in the hole. -/
def fill : Context → Schema → Schema
  | .hole, s => s
  | .property siblings name _ inner required refinements, s =>
    ⟨.object (siblings.insertNew name (inner.fill s)), required, refinements⟩
  | .element inner required refinements, s => ⟨.array (inner.fill s), required, refinements⟩
  | .alternative before inner after required refinements, s =>
    ⟨.union (before ++ inner.fill s :: after), required, refinements⟩

/-- One layer more around a context, from a node to the child that a step leads to. -/
theorem exists_layer {s c : Schema} {step : Step} (h : s.child? step = some c) (C : Context) :
    ∃ D : Context, ∀ a, C.fill a = c → D.fill a = s := by
  obtain ⟨kind, required, refinements⟩ := s
  cases kind with
  | unset | string | number | boolean => cases step <;> exact nomatch h
  | object properties =>
    cases step with
    | element | alternative => exact nomatch h
    | property name =>
      have free : Bindings.get? (properties.erase name) name = none := by
        rw [Bindings.get?_erase, if_pos rfl]
      refine ⟨.property (properties.erase name) name free C required refinements, ?_⟩
      rintro a rfl
      rw [fill, NameMap.insertNew_erase h]
  | array element =>
    cases step with
    | property | alternative => exact nomatch h
    | element =>
      cases h
      refine ⟨.element C required refinements, ?_⟩
      rintro a rfl
      rfl
  | union alternatives =>
    cases step with
    | property | element => exact nomatch h
    | alternative index =>
      obtain ⟨bound, rfl⟩ := List.getElem?_eq_some_iff.mp h
      refine ⟨.alternative (alternatives.take index) C (alternatives.drop (index + 1)) required
        refinements, ?_⟩
      intro a eq
      rw [fill, eq, List.getElem_cons_drop, List.take_append_drop]

/-- The hole may stand for the node at any position. -/
theorem exists_fill_eq {s a : Schema} {position : Position} (h : s.node? position = some a) :
    ∃ C : Context, C.fill a = s := by
  induction position generalizing s with
  | nil => exact ⟨.hole, (Option.some.inj h).symm⟩
  | cons step rest ih =>
    obtain ⟨c, hc, ha⟩ := Option.bind_eq_some_iff.mp h
    obtain ⟨C, eq⟩ := ih ha
    obtain ⟨D, layer⟩ := exists_layer hc C
    exact ⟨D, layer a eq⟩

end Context

/-! ## One layer of a context -/

namespace Kind

variable {σ : Type} {R : σ → σ → Prop}

/-- Changing one property for one above it. -/
theorem below_insertNew (refl : ∀ s, R s s) (siblings : NameMap σ) (name : String) {s t : σ}
    (h : R s t) :
    Below R (.object (siblings.insertNew name s)) (.object (siblings.insertNew name t)) := by
  refine .object fun key u hu => ?_
  rw [NameMap.get?_insertNew] at hu ⊢
  rcases Option.or_eq_some_iff.mp hu with sibling | ⟨free, changed⟩
  · exact ⟨u, by rw [sibling, Option.some_or], refl u⟩
  · obtain ⟨eq, changed⟩ := Option.ite_none_right_eq_some.mp changed
    cases changed
    exact ⟨s, by rw [free, Option.none_or, if_pos eq], h⟩

/-- Changing one alternative for one above it. -/
theorem below_append_cons (refl : ∀ s, R s s) (before after : List σ) {s t : σ} (h : R s t) :
    Below R (.union (before ++ s :: after)) (.union (before ++ t :: after)) := by
  refine .union fun u hu => ?_
  rcases List.mem_append.mp hu with hu | hu
  · exact ⟨u, List.mem_append_left _ hu, refl u⟩
  · rcases List.mem_cons.mp hu with rfl | hu
    · exact ⟨t, List.mem_append_right _ List.mem_cons_self, h⟩
    · exact ⟨u, List.mem_append_right _ (List.mem_cons_of_mem _ hu), refl u⟩

end Kind

/-! ## What a context accepts -/

namespace Schema

/-- A node accepts more if its kind is above, its flag not stricter and its refinements fewer, where
children above accept at least as much. -/
theorem accepts_of_below {R : Schema → Schema → Prop} {s t : Schema}
    (kind : s.kind.Below R t.kind) (flag : s.required = false → t.required = false)
    (sub : t.refinements ⊆ s.refinements)
    (hR : ∀ a ∈ s.kind.children, ∀ b, R a b → ∀ v, a.accepts v = true → b.accepts v = true)
    {v : Value} (hv : s.accepts v = true) : t.accepts v = true := by
  have same : s.Settles v ↔ t.Settles v := by
    rw [Settles, Settles, kind.handlesAbsence_eq]
  by_cases settled : s.Settles v
  · rw [accepts_of_settles settled] at hv
    rw [accepts_of_settles (same.mp settled)]
    exact flag hv
  · rw [accepts_of_not_settles settled] at hv
    rw [accepts_of_not_settles (mt same.mpr settled)]
    obtain ⟨admitted, refined⟩ := hv
    exact ⟨kind.admits hR flag admitted, fun p hp => refined p (sub hp)⟩

end Schema

namespace Context

/-- A preorder that holds of nodes whose kinds it relates holds of filled contexts. -/
theorem fill_rel {R : Schema → Schema → Prop} (refl : ∀ s, R s s)
    (node : ∀ k l, Kind.Below R k l → ∀ required refinements,
      R ⟨k, required, refinements⟩ ⟨l, required, refinements⟩)
    (C : Context) {a b : Schema} (h : R a b) : R (C.fill a) (C.fill b) := by
  induction C with
  | hole => exact h
  | property siblings name free inner required refinements ih =>
    exact node _ _ (Kind.below_insertNew refl siblings name ih) required refinements
  | element inner required refinements ih => exact node _ _ (.array ih) required refinements
  | alternative before inner after required refinements ih =>
    exact node _ _ (Kind.below_append_cons refl before after ih) required refinements

/-- A context accepts more the more the schema in its hole accepts. -/
theorem accepts_mono (C : Context) {a b : Schema}
    (h : ∀ v, a.accepts v = true → b.accepts v = true) (v : Value)
    (hv : (C.fill a).accepts v = true) : (C.fill b).accepts v = true := by
  refine fill_rel (R := fun s t => ∀ v, s.accepts v = true → t.accepts v = true)
    (fun _ _ => id) ?_ C h v hv
  intro k l kind required refinements v
  exact Schema.accepts_of_below (s := ⟨k, required, refinements⟩) (t := ⟨l, required, refinements⟩)
    kind id (List.Subset.refl _) fun _ _ _ => id

/-- Schemas that accept the same values are interchangeable in every context. -/
theorem accepts_fill_congr {a b : Schema} (h : ∀ v, a.accepts v = b.accepts v) (C : Context)
    (v : Value) : (C.fill a).accepts v = (C.fill b).accepts v := by
  rw [Bool.eq_iff_iff]
  constructor
  · exact C.accepts_mono (fun w hw => h w ▸ hw) v
  · exact C.accepts_mono (fun w hw => h w ▸ hw) v

/-- A string and the union of nothing else judge absence in different ways, yet the elements of a
property may be either. -/
theorem accepts_fill_string_eq_oneOf :
    (∀ v, Schema.blank.string.accepts v = (Schema.blank.oneOf [Schema.blank.string]).accepts v) ∧
      ((property (NameMap.ofList [("age", Schema.blank.number.optional)]) "names" (by decide)
        (.element .hole true []) false []).fill Schema.blank.string).accepts
          (.ofProperties [("names", .array [.string "a", .absent])]) =
      ((property (NameMap.ofList [("age", Schema.blank.number.optional)]) "names" (by decide)
        (.element .hole true []) false []).fill (Schema.blank.oneOf [Schema.blank.string])).accepts
          (.ofProperties [("names", .array [.string "a", .absent])]) := by
  have same (v : Value) :
      Schema.blank.string.accepts v = (Schema.blank.oneOf [Schema.blank.string]).accepts v := by
    cases v <;> rfl
  exact ⟨same, accepts_fill_congr same _ _⟩

end Context

end SchemaValidation
