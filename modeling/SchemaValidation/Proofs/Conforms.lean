import SchemaValidation.Proofs.Acceptance

/-!
# Conformance

`Conforms s v` says which values a schema is for, by rules: each rule gives its conditions, in any
order, and nothing is evaluated.  `Schema.validate_iff_conforms` is the agreement of the evaluator
with the rules, for every schema and every value.

The rules and the evaluator satisfy the same equation at a node, `conforms_of_not_settles` on this
side and `Schema.accepts_of_not_settles` on the other, and such an equation has one solution.
-/

namespace SchemaValidation

mutual

/-- The value is one that the schema is for. -/
inductive Conforms : Schema → Value → Prop
  /-- A node that is neither an array nor a union leaves absence to its flag, refinements aside. -/
  | absent {s : Schema} (array : s.kind.name ≠ .array) (union : s.kind.name ≠ .union)
      (optional : s.required = false) : Conforms s .absent
  /-- Any other value is of the kind and satisfies the refinements. -/
  | checked {s : Schema} {v : Value}
      (other : v = .absent → s.kind.name = .array ∨ s.kind.name = .union)
      (kind : OfKind s.kind s.required v)
      (refinements : ∀ p ∈ s.refinements, (p v).result = true) : Conforms s v

/-- The value is of the kind, at a node that is required or not. -/
inductive OfKind : Kind Schema → Bool → Value → Prop
  | string {required : Bool} (s : String) : OfKind .string required (.string s)
  | number {required : Bool} (x : Double) : OfKind .number required (.number x)
  | boolean {required : Bool} (b : Bool) : OfKind .boolean required (.boolean b)
  /-- An array counts as an object that has none of the properties. -/
  | object {properties : NameMap Schema} {required : Bool} {v : Value}
      (type : v.typeName = .object ∨ v.typeName = .array)
      (parts : ∀ name child, properties.get? name = some child → Conforms child (v.get name)) :
      OfKind (.object properties) required v
  | null {required : Bool} : OfKind (.object .nil) required .null
  | array {element : Schema} {required : Bool} {items : List Value}
      (parts : ∀ item ∈ items, Conforms element item) :
      OfKind (.array element) required (.array items)
  | absentArray {element : Schema} : OfKind (.array element) false .absent
  | union {alternatives : List Schema} {required : Bool} {v : Value} (alternative : Schema)
      (mem : alternative ∈ alternatives) (conforms : Conforms alternative v) :
      OfKind (.union alternatives) required v
  | absentUnion {alternatives : List Schema} : OfKind (.union alternatives) false .absent

end

/-- Inversion of the rules for kinds. -/
theorem ofKind_iff {kind : Kind Schema} {required : Bool} {v : Value} :
    OfKind kind required v ↔ kind.Admits Conforms required v := by
  constructor
  · intro h
    cases h with
    | string | number | boolean => rfl
    | object type parts => exact .inl ⟨type, parts⟩
    | null => exact .inr ⟨rfl, fun _ => rfl⟩
    | array parts => exact .inl ⟨_, rfl, parts⟩
    | absentArray => exact .inr ⟨rfl, rfl⟩
    | union alternative mem conforms => exact .inr ⟨alternative, mem, conforms⟩
    | absentUnion => exact .inl ⟨rfl, rfl⟩
  · intro h
    cases kind with
    | unset => exact h.elim
    | string => cases v <;> first | exact .string _ | exact nomatch h
    | number => cases v <;> first | exact .number _ | exact nomatch h
    | boolean => cases v <;> first | exact .boolean _ | exact nomatch h
    | object properties =>
      rcases h with ⟨type, parts⟩ | ⟨rfl, none⟩
      · exact .object type parts
      · cases properties with
        | nil => exact .null
        | cons name follows child rest => simpa using none name
    | array element =>
      rcases h with ⟨items, rfl, parts⟩ | ⟨rfl, rfl⟩
      · exact .array parts
      · exact .absentArray
    | union alternatives =>
      rcases h with ⟨rfl, rfl⟩ | ⟨alternative, mem, conforms⟩
      · exact .absentUnion
      · exact .union alternative mem conforms

theorem settles_iff_name {s : Schema} {v : Value} :
    s.Settles v ↔ v = .absent ∧ s.kind.name ≠ .array ∧ s.kind.name ≠ .union := by
  simp [Schema.Settles, Kind.handlesAbsence]

theorem conforms_of_settles {s : Schema} {v : Value} (h : s.Settles v) :
    Conforms s v ↔ s.required = false := by
  obtain ⟨rfl, array, union⟩ := settles_iff_name.mp h
  constructor
  · intro conforms
    cases conforms with
    | absent _ _ optional => exact optional
    | checked other _ _ => exact ((other rfl).elim array union).elim
  · exact .absent array union

theorem conforms_of_not_settles {s : Schema} {v : Value} (h : ¬s.Settles v) :
    Conforms s v ↔
      s.kind.Admits Conforms s.required v ∧ ∀ p ∈ s.refinements, (p v).result = true := by
  rw [← ofKind_iff]
  constructor
  · intro conforms
    cases conforms with
    | absent array union _ => exact (h (settles_iff_name.mpr ⟨rfl, array, union⟩)).elim
    | checked _ kind refinements => exact ⟨kind, refinements⟩
  · rintro ⟨kind, refinements⟩
    refine .checked (fun absent => ?_) kind refinements
    by_cases array : s.kind.name = .array
    · exact .inl array
    · by_cases union : s.kind.name = .union
      · exact .inr union
      · exact (h (settles_iff_name.mpr ⟨absent, array, union⟩)).elim

namespace Schema

/-- The evaluator accepts the values that conform, and no others. -/
theorem validate_iff_conforms (s : Schema) (v : Value) :
    (s.validate v).result = true ↔ Conforms s v := by
  show s.accepts v = true ↔ Conforms s v
  induction s using Schema.induction generalizing v with
  | node kind required refinements ih =>
    by_cases h : (⟨kind, required, refinements⟩ : Schema).Settles v
    · rw [accepts_of_settles h, conforms_of_settles h]
    · rw [accepts_of_not_settles h, conforms_of_not_settles h, Kind.admits_congr ih]

end Schema

end SchemaValidation
