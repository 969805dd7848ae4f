import SchemaValidation.Proofs.NameMap
import SchemaValidation.Schema.Validate

/-!
# What a schema accepts

Acceptance without its events.  An absent value is *settled* at a node that leaves absence to its
flag; every other value passes the type check of its node and satisfies the refinements.

The type check looks at the children of a kind only through what they accept, so it is stated
relative to that: `Kind.Admits accepts required kind v` is one step of it, in which `accepts` stands
for the verdicts on the parts.  `Schema.fits_iff` says that the evaluator takes such steps.

Two kinds that match one step deep are compared with `Kind.Below`, again relative to a relation
between their children.  `Kind.Below.admits` is the comparison of what they admit.
-/

namespace SchemaValidation

/-! ## One step of the type check -/

namespace Kind

variable {σ τ : Type}

/-- The type check of a node, given the verdicts on its parts. -/
def Admits (accepts : σ → Value → Prop) (required : Bool) : Kind σ → Value → Prop
  | .unset, _ => False
  | .string, v => v.typeName = .string
  | .number, v => v.typeName = .number
  | .boolean, v => v.typeName = .boolean
  | .object properties, v =>
    ((v.typeName = .object ∨ v.typeName = .array) ∧
      ∀ name child, properties.get? name = some child → accepts child (v.get name)) ∨
    (v = .null ∧ ∀ name, properties.get? name = none)
  | .array element, v =>
    (∃ items, v = .array items ∧ ∀ item ∈ items, accepts element item) ∨
    (required = false ∧ v = .absent)
  | .union alternatives, v =>
    (required = false ∧ v = .absent) ∨ ∃ alternative ∈ alternatives, accepts alternative v

/-- Kinds of one name whose children match, each against one that `R` puts above it.  An object
kind may lose properties, and a union may gain alternatives. -/
inductive Below (R : σ → τ → Prop) : Kind σ → Kind τ → Prop
  | unset : Below R .unset .unset
  | string : Below R .string .string
  | number : Below R .number .number
  | boolean : Below R .boolean .boolean
  | object {p : NameMap σ} {q : NameMap τ}
      (children : ∀ name t, q.get? name = some t → ∃ s, p.get? name = some s ∧ R s t) :
      Below R (.object p) (.object q)
  | array {s : σ} {t : τ} (element : R s t) : Below R (.array s) (.array t)
  | union {as : List σ} {bs : List τ} (alternatives : ∀ a ∈ as, ∃ b ∈ bs, R a b) :
      Below R (.union as) (.union bs)

variable {R : σ → τ → Prop} {k : Kind σ} {l : Kind τ}

theorem Below.name_eq (h : Below R k l) : k.name = l.name := by
  cases h <;> rfl

theorem Below.handlesAbsence_eq (h : Below R k l) : k.handlesAbsence = l.handlesAbsence := by
  rw [handlesAbsence, handlesAbsence, h.name_eq]

theorem Below.mono {R' : σ → τ → Prop} (h : Below R k l)
    (hR : ∀ s ∈ k.children, ∀ t, R s t → R' s t) : Below R' k l := by
  cases h with
  | unset => exact .unset
  | string => exact .string
  | number => exact .number
  | boolean => exact .boolean
  | object children =>
    refine .object fun name t ht => ?_
    obtain ⟨s, hs, hst⟩ := children name t ht
    exact ⟨s, hs, hR s (Bindings.mem_items_iff.mpr ⟨name, hs⟩) t hst⟩
  | array element => exact .array (hR _ (List.mem_singleton_self _) _ element)
  | union alternatives =>
    refine .union fun a ha => ?_
    obtain ⟨b, hb, hab⟩ := alternatives a ha
    exact ⟨b, hb, hR a ha b hab⟩

/-- A kind is below itself if its children are. -/
theorem below_self {R : σ → σ → Prop} {k : Kind σ} (h : ∀ s ∈ k.children, R s s) :
    Below R k k := by
  cases k with
  | unset => exact .unset
  | string => exact .string
  | number => exact .number
  | boolean => exact .boolean
  | object properties =>
    exact .object fun name s hs => ⟨s, hs, h s (Bindings.mem_items_iff.mpr ⟨name, hs⟩)⟩
  | array element => exact .array (h element (List.mem_singleton_self element))
  | union alternatives => exact .union fun a ha => ⟨a, ha, h a ha⟩

/-- What a kind admits, a kind above it admits, if the children above accept at least as much. -/
theorem Below.admits {A : σ → Value → Prop} {B : τ → Value → Prop} (h : Below R k l)
    (hR : ∀ s ∈ k.children, ∀ t, R s t → ∀ v, A s v → B t v) {r r' : Bool}
    (hr : r = false → r' = false) {v : Value} (hv : k.Admits A r v) : l.Admits B r' v := by
  cases h with
  | unset => exact hv
  | string => exact hv
  | number => exact hv
  | boolean => exact hv
  | object children =>
    rcases hv with ⟨type, parts⟩ | ⟨null, none⟩
    · refine .inl ⟨type, fun name t ht => ?_⟩
      obtain ⟨s, hs, hst⟩ := children name t ht
      exact hR s (Bindings.mem_items_iff.mpr ⟨name, hs⟩) t hst _ (parts name s hs)
    · refine .inr ⟨null, fun name => Option.eq_none_iff_forall_ne_some.mpr fun t ht => ?_⟩
      obtain ⟨s, hs, -⟩ := children name t ht
      rw [none name] at hs
      cases hs
  | array element =>
    rcases hv with ⟨items, rfl, parts⟩ | ⟨optional, absent⟩
    · refine .inl ⟨items, rfl, fun item mem => ?_⟩
      exact hR _ (List.mem_singleton_self _) _ element item (parts item mem)
    · exact .inr ⟨hr optional, absent⟩
  | union alternatives =>
    rcases hv with ⟨optional, absent⟩ | ⟨a, ha, accepted⟩
    · exact .inl ⟨hr optional, absent⟩
    · obtain ⟨b, hb, hab⟩ := alternatives a ha
      exact .inr ⟨b, hb, hR a ha b hab v accepted⟩

/-- A kind admits more the more its children accept. -/
theorem Admits.imp {A B : σ → Value → Prop} {k : Kind σ} {required : Bool} {v : Value}
    (h : ∀ s ∈ k.children, ∀ v, A s v → B s v) (hv : k.Admits A required v) :
    k.Admits B required v := by
  have self : k.Below (· = ·) k := below_self fun _ _ => rfl
  refine self.admits ?_ id hv
  rintro s hs _ rfl
  exact h s hs

/-- A kind looks at its children only through what they accept. -/
theorem admits_congr {A B : σ → Value → Prop} {k : Kind σ} {required : Bool} {v : Value}
    (h : ∀ s ∈ k.children, ∀ v, A s v ↔ B s v) :
    k.Admits A required v ↔ k.Admits B required v :=
  ⟨Admits.imp fun s hs v => (h s hs v).mp, Admits.imp fun s hs v => (h s hs v).mpr⟩

end Kind

/-! ## The evaluator -/

namespace Schema

/-- An absent value at a node that is neither an array nor a union. -/
def Settles (s : Schema) (v : Value) : Prop := v = .absent ∧ s.kind.handlesAbsence = false

theorem settles_iff {s : Schema} {v : Value} :
    s.Settles v ↔ (v.isAbsent && !s.kind.handlesAbsence) = true := by
  simp [Settles, Value.isAbsent_iff]

instance (s : Schema) (v : Value) : Decidable (s.Settles v) := decidable_of_iff' _ settles_iff

theorem not_settles_of_ne_absent {s : Schema} {v : Value} (present : v ≠ .absent) : ¬s.Settles v :=
  fun h => present h.1

/-- Arrays and unions leave nothing to the flag alone. -/
theorem not_settles_of_handles {s : Schema} {v : Value} (h : s.kind.handlesAbsence = true) :
    ¬s.Settles v := by
  rintro ⟨-, handles⟩
  rw [h] at handles
  cases handles

/-- A settled value is judged by the flag alone, and nothing is reported. -/
theorem validate_of_settles {s : Schema} {v : Value} (h : s.Settles v) :
    s.validate v = pure !s.required := by
  rw [validate_eq, if_pos (settles_iff.mp h)]

/-- Any other value is put to the type check, and then to the refinements. -/
theorem validate_of_not_settles {s : Schema} {v : Value} (h : ¬s.Settles v) :
    s.validate v =
      ((fits s.kind s.required v).onReject (.typeRejected s.kind.name v.typeName)).both
        (refinementsHold s.kind.name s.refinements v) := by
  rw [validate_eq, if_neg (mt settles_iff.mpr h)]

/-- Where the type checks do the same, so do the evaluations.  Of the flags no more is asked, unless
the value is absent. -/
theorem validate_congr_of_fits {s t : Schema} {v : Value} (name : s.kind.name = t.kind.name)
    (required : v = .absent → s.required = t.required) (refinements : s.refinements = t.refinements)
    (fits_eq : fits s.kind s.required v = fits t.kind t.required v) :
    s.validate v = t.validate v := by
  have handles : s.kind.handlesAbsence = t.kind.handlesAbsence := by
    rw [Kind.handlesAbsence, Kind.handlesAbsence, name]
  rw [validate_eq, validate_eq t, fits_eq, handles, name, refinements]
  split
  next settled =>
    rw [required (Value.isAbsent_iff.mp (Bool.and_eq_true_iff.mp settled).1)]
  · rfl

theorem result_refinementsHold (kind : KindName) (refinements : List Predicate) (v : Value) :
    (refinementsHold kind refinements v).result = refinements.all fun p => (p v).result := by
  rw [refinementsHold, Traced.result_allM]
  simp only [Traced.result_onReject]
  calc refinements.zipIdx.all (fun a => (a.1 v).result)
      = (refinements.zipIdx.map Prod.fst).all fun p => (p v).result := by rw [List.all_map]; rfl
    _ = refinements.all fun p => (p v).result := by rw [List.zipIdx_map_fst]

/-- The type check looks up the declared properties of objects and arrays. -/
theorem fits_object_iff {properties : NameMap Schema} {required : Bool} {v : Value} :
    (fits (.object properties) required v).result = true ↔
      ((v.typeName = .object ∨ v.typeName = .array) ∧
        ∀ name child, properties.get? name = some child → child.accepts (v.get name) = true) ∨
      (v = .null ∧ ∀ name, properties.get? name = none) := by
  by_cases type : v.typeName = .object ∨ v.typeName = .array
  · have present : v ≠ .null := by
      rintro rfl
      exact type.elim nofun nofun
    simp [fits_object _ _ _ type, Traced.result_allM, Bindings.mem_toList_iff, accepts, type,
      present]
  · cases v with
    | null => simp [fits, Value.typeName, Bindings.isEmpty_iff]
    | absent | boolean | number | string => simp [fits, Value.typeName]
    | array | object => simp [Value.typeName] at type

theorem fits_array_iff {element : Schema} {required : Bool} {v : Value} :
    (fits (.array element) required v).result = true ↔
      (∃ items, v = .array items ∧ ∀ item ∈ items, element.accepts item = true) ∨
      (required = false ∧ v = .absent) := by
  cases v with
  | array items => simp [fits_array, Traced.result_allM, accepts]
  | _ => simp [fits, Value.isAbsent, Value.typeName]

theorem fits_union_iff {alternatives : List Schema} {required : Bool} {v : Value} :
    (fits (.union alternatives) required v).result = true ↔
      (required = false ∧ v = .absent) ∨
      ∃ alternative ∈ alternatives, alternative.accepts v = true := by
  rw [fits_union]
  split
  next h =>
    simp only [Bool.and_eq_true, Bool.not_eq_true', Value.isAbsent_iff] at h
    simp [h]
  next h =>
    simp only [Bool.and_eq_true, Bool.not_eq_true', Value.isAbsent_iff] at h
    simp [h, Traced.result_anyM, accepts]

/-- The evaluator's type check takes one step, and leaves the parts to the children. -/
theorem fits_iff {kind : Kind Schema} {required : Bool} {v : Value} :
    (fits kind required v).result = true ↔
      kind.Admits (fun s v => s.accepts v = true) required v := by
  cases kind with
  | unset => simp [fits, Kind.Admits]
  | string | number | boolean => simp [fits, Kind.Admits]
  | object properties => exact fits_object_iff
  | array element => exact fits_array_iff
  | union alternatives => exact fits_union_iff

theorem accepts_of_settles {s : Schema} {v : Value} (h : s.Settles v) :
    s.accepts v = true ↔ s.required = false := by
  rw [accepts, validate_of_settles h]
  simp

theorem accepts_of_not_settles {s : Schema} {v : Value} (h : ¬s.Settles v) :
    s.accepts v = true ↔
      s.kind.Admits (fun s v => s.accepts v = true) s.required v ∧
        ∀ p ∈ s.refinements, (p v).result = true := by
  rw [accepts, validate_of_not_settles h, Traced.result_both, Traced.result_onReject,
    result_refinementsHold, Bool.and_eq_true, fits_iff, List.all_eq_true]

/-- A union settles nothing by its flag alone: an absent value is put to the refinements, too. -/
theorem accepts_union_iff {alternatives : List Schema} {required : Bool}
    {refinements : List Predicate} {v : Value} :
    accepts ⟨.union alternatives, required, refinements⟩ v = true ↔
      ((required = false ∧ v = .absent) ∨
        ∃ alternative ∈ alternatives, alternative.accepts v = true) ∧
      ∀ p ∈ refinements, (p v).result = true := by
  rw [accepts_of_not_settles (not_settles_of_handles rfl)]
  rfl

end Schema

end SchemaValidation
