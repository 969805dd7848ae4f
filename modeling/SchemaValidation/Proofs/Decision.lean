import SchemaValidation.Predicate
import SchemaValidation.Proofs.Acceptance
import SchemaValidation.Proofs.ByteOrder
import SchemaValidation.Proofs.Search
import SchemaValidation.Proofs.Visit

/-!
# Decisions

An evaluation stops at its first decision: at an alternative that accepts, an element or a property
that is rejected, a refinement that does not hold, or at once where an optional union is absent.
Two visits that are the same up to a decision are `DecidedAlike`, whatever comes after it, and they
have the same verdict and the same events (`Visit.run_eq_of_decidedAlike`).

What comes after a property is what has a greater name, byte by byte.
-/

namespace SchemaValidation

namespace Visit

/-- The visits are the same up to a decision. -/
inductive DecidedAlike : Visit → Visit → Prop
  /-- The alternatives after one that accepts may differ. -/
  | alternative {before : List Schema} {alternative : Schema} {required : Bool}
      {refinements : List Predicate} {v : Value} (accepted : alternative.accepts v = true)
      (after after' : List Schema) :
      DecidedAlike ⟨⟨.union (before ++ alternative :: after), required, refinements⟩, v⟩
        ⟨⟨.union (before ++ alternative :: after'), required, refinements⟩, v⟩
  /-- The elements after one that is rejected may differ, and the refinements. -/
  | item {element : Schema} {required : Bool} {before : List Value} {item : Value}
      (rejected : element.accepts item = false) (after after' : List Value)
      (refinements refinements' : List Predicate) :
      DecidedAlike ⟨⟨.array element, required, refinements⟩, .array (before ++ item :: after)⟩
        ⟨⟨.array element, required, refinements'⟩, .array (before ++ item :: after')⟩
  /-- Whatever has a greater name than a property that is rejected may differ, and the
  refinements. -/
  | property {properties properties' : NameMap Schema} {required : Bool} {v w : Value}
      {name : String} {child : Schema} (type : v.typeName = .object ∨ v.typeName = .array)
      (type_eq : v.typeName = w.typeName)
      (declared : ∀ other, utf8 other ≤ utf8 name →
        properties.get? other = properties'.get? other)
      (found : ∀ other, utf8 other ≤ utf8 name → v.get other = w.get other)
      (declares : properties.get? name = some child)
      (rejected : child.accepts (v.get name) = false) (refinements refinements' : List Predicate) :
      DecidedAlike ⟨⟨.object properties, required, refinements⟩, v⟩
        ⟨⟨.object properties', required, refinements'⟩, w⟩
  /-- The refinements after one that does not hold may differ. -/
  | refinement {kind : Kind Schema} {required : Bool} {before : List Predicate} {p : Predicate}
      {v : Value} (refuses : (p v).result = false) (after after' : List Predicate) :
      DecidedAlike ⟨⟨kind, required, before ++ p :: after⟩, v⟩
        ⟨⟨kind, required, before ++ p :: after'⟩, v⟩
  /-- The alternatives of an optional union that is absent may differ. -/
  | absent {refinements : List Predicate} (alternatives alternatives' : List Schema) :
      DecidedAlike ⟨⟨.union alternatives, false, refinements⟩, .absent⟩
        ⟨⟨.union alternatives', false, refinements⟩, .absent⟩

end Visit

namespace Schema

variable {required required' : Bool} {v w : Value}

/-! ## Type checks up to their decision -/

theorem fits_congr_of_alternative {before : List Schema} {alternative : Schema}
    (accepted : alternative.accepts v = true) (after after' : List Schema) :
    fits (.union (before ++ alternative :: after)) required v =
      fits (.union (before ++ alternative :: after')) required v := by
  rw [fits_union, fits_union,
    Traced.anyM_congr_of_holds (p := fun s : Schema => s.validate v) accepted after after']

theorem fits_congr_of_item {element : Schema} {before : List Value} {item : Value}
    (rejected : element.accepts item = false) (after after' : List Value) :
    fits (.array element) required (.array (before ++ item :: after)) =
      fits (.array element) required' (.array (before ++ item :: after')) := by
  rw [fits_array, fits_array]
  exact Traced.allM_congr_of_fails (fun _ _ => rfl) rfl rejected after after'

/-- The bindings up to the property are the same, and the search ends there. -/
theorem fits_congr_of_property {properties properties' : NameMap Schema} {name : String}
    {child : Schema} (type : v.typeName = .object ∨ v.typeName = .array)
    (type_eq : v.typeName = w.typeName)
    (declared : ∀ other, other ≤ name → properties.get? other = properties'.get? other)
    (found : ∀ other, other ≤ name → v.get other = w.get other)
    (declares : properties.get? name = some child)
    (rejected : child.accepts (v.get name) = false) :
    fits (.object properties) required v = fits (.object properties') required' w := by
  obtain ⟨before, after, after', split, split', below⟩ :=
    Bindings.exists_toList_eq declared declares
  rw [fits_object _ _ _ type, fits_object _ _ _ (type_eq ▸ type), split, split']
  have same (child : Schema) (other : String) (le : other ≤ name) :
      child.validate (v.get other) = child.validate (w.get other) := by rw [found other le]
  exact Traced.allM_congr_of_fails (a := (name, child)) (fun b mem => same b.2 b.1 (below b mem))
    (same child name (String.le_refl name)) rejected after after'

/-! ## Evaluations up to their decision -/

/-- Where the type checks fail, the refinements are not looked at. -/
theorem validate_congr_of_fails {s t : Schema} (name : s.kind.name = t.kind.name)
    (type : v.typeName = w.typeName) (present : v.typeName ≠ .absent)
    (fits_eq : fits s.kind s.required v = fits t.kind t.required w)
    (fails : (fits s.kind s.required v).result = false) : s.validate v = t.validate w := by
  have unsettled : ¬s.Settles v := by
    refine not_settles_of_ne_absent ?_
    rintro rfl
    exact present rfl
  have unsettled' : ¬t.Settles w := by
    refine not_settles_of_ne_absent ?_
    rintro rfl
    exact present type
  have rejected : ((fits t.kind t.required w).onReject
      (.typeRejected t.kind.name w.typeName)).result = false := by
    rw [Traced.result_onReject, ← fits_eq, fails]
  rw [validate_of_not_settles unsettled, validate_of_not_settles unsettled', fits_eq, name, type,
    Traced.both_of_fails rejected, Traced.both_of_fails rejected]

theorem refinementsHold_congr_of_fails {name : KindName} {before : List Predicate} {p : Predicate}
    (refuses : (p v).result = false) (after after' : List Predicate) :
    refinementsHold name (before ++ p :: after) v =
      refinementsHold name (before ++ p :: after') v := by
  rw [refinementsHold, refinementsHold, List.zipIdx_append, List.zipIdx_append, List.zipIdx_cons,
    List.zipIdx_cons]
  refine Traced.allM_congr_of_fails (fun _ _ => rfl) rfl ?_ _ _
  rw [Traced.result_onReject, refuses]

end Schema

/-- Visits that are the same up to a decision have the same verdict and the same events. -/
theorem Visit.run_eq_of_decidedAlike {x y : Visit} (h : x.DecidedAlike y) : x.run = y.run := by
  cases h with
  | alternative accepted after after' =>
    exact Schema.validate_congr_of_fits rfl (fun _ => rfl) rfl
      (Schema.fits_congr_of_alternative accepted after after')
  | @item element _ before item rejected after after' =>
    refine Schema.validate_congr_of_fails rfl rfl nofun
      (Schema.fits_congr_of_item rejected after after') (Bool.eq_false_iff.mpr fun holds => ?_)
    rcases Schema.fits_array_iff.mp holds with ⟨items, eq, accepted⟩ | ⟨-, absent⟩
    · cases eq
      rw [accepted item List.mem_append_cons_self] at rejected
      cases rejected
    · cases absent
  | @property properties properties' _ v w name child type type_eq declared found declares
      rejected =>
    have present : v.typeName ≠ .absent := by
      rcases type with type | type <;> rw [type] <;> exact nofun
    refine Schema.validate_congr_of_fails rfl type_eq present
      (Schema.fits_congr_of_property type type_eq
        (fun other le => declared other (utf8_le_iff.mpr le))
        (fun other le => found other (utf8_le_iff.mpr le)) declares rejected)
      (Bool.eq_false_iff.mpr fun holds => ?_)
    rcases Schema.fits_object_iff.mp holds with ⟨-, accepted⟩ | ⟨-, undeclared⟩
    · rw [accepted name child declares] at rejected
      cases rejected
    · rw [undeclared name] at declares
      cases declares
  | refinement refuses after after' =>
    rw [Visit.run, Visit.run, Schema.validate_eq, Schema.validate_eq,
      Schema.refinementsHold_congr_of_fails refuses after after']
  | absent alternatives alternatives' => exact Schema.validate_congr_of_fits rfl (fun _ => rfl) rfl rfl

/-- With the first property rejected, neither the second, nor its value, nor a note matters. -/
theorem Visit.run_eq_of_decidedAlike_object :
    (Visit.mk (Schema.blank.object [("id", .string .blank), ("tag", .blank)])
        (.ofProperties [("id", .null), ("tag", .null)])).DecidedAlike
      (Visit.mk ((Schema.blank.object [("id", .string .blank)]).which
        (.noting "seen" fun _ => pure true)) (.ofProperties [("id", .null)])) ∧
    (Visit.mk (Schema.blank.object [("id", .string .blank), ("tag", .blank)])
        (.ofProperties [("id", .null), ("tag", .null)])).run =
      (Visit.mk ((Schema.blank.object [("id", .string .blank)]).which
        (.noting "seen" fun _ => pure true)) (.ofProperties [("id", .null)])).run := by
  have lower (α : Type) (item item' : α) (other : String) (le : utf8 other ≤ utf8 "id") :
      (NameMap.ofList [("id", item), ("tag", item')]).get? other =
        (NameMap.ofList [("id", item)]).get? other := by
    have ne : other ≠ "tag" := by
      rintro rfl
      exact absurd le (by decide)
    rw [NameMap.get?_ofList_cons, NameMap.get?_ofList_cons, NameMap.get?_ofList_cons]
    simp [ne]
  have alike : (Visit.mk (Schema.blank.object [("id", .string .blank), ("tag", .blank)])
        (.ofProperties [("id", .null), ("tag", .null)])).DecidedAlike
      (Visit.mk ((Schema.blank.object [("id", .string .blank)]).which
        (.noting "seen" fun _ => pure true)) (.ofProperties [("id", .null)])) := by
    refine .property ?_ ?_ (lower Schema (.string .blank) .blank) (fun other le => ?_) rfl ?_ [] _
    · exact .inl rfl
    · rfl
    · exact congrArg (·.getD .absent) (lower Value .null .null other le)
    · decide
  exact ⟨alike, run_eq_of_decidedAlike alike⟩

end SchemaValidation
