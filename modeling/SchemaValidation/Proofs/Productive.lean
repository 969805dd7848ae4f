import SchemaValidation.Proofs.Acceptance
import SchemaValidation.Proofs.Undeclared
import Mathlib.Tactic.Choose

/-!
# Productive schemas

A schema may be declared and still reject whatever is present: a union without alternatives does,
and so does an object that requires a property of such a kind.  `Schema.productive` finds this out
from the schema alone.  A schema that accepts a present value is productive, whatever its
refinements are, and without refinements a productive schema accepts one
(`exists_present_iff_productive`).

The value is built along the schema.  Of an object each declared property needs a value of its own,
which may also be the absent one.
-/

namespace SchemaValidation

namespace Schema

/-! ## Productive nodes -/

mutual

/-- Refinements aside, some present value is accepted. -/
def productive : Schema → Bool
  | ⟨kind, _, _⟩ => productiveKind kind
termination_by structural s => s

def productiveKind : Kind Schema → Bool
  | .unset => false
  | .string | .number | .boolean | .array _ => true
  | .object properties => productiveProperties properties
  | .union alternatives => productiveAny alternatives
termination_by structural kind => kind

/-- Every property can be present, or else may be absent. -/
def productiveProperties {floor : Option String} : Bindings Schema floor → Bool
  | .nil => true
  | .cons _ _ child rest =>
    (child.productive || child.accepts .absent) && productiveProperties rest
termination_by structural properties => properties

def productiveAny : List Schema → Bool
  | [] => false
  | s :: rest => s.productive || productiveAny rest
termination_by structural alternatives => alternatives

end

theorem productiveProperties_eq {floor : Option String} (properties : Bindings Schema floor) :
    productiveProperties properties =
      properties.items.all fun child => child.productive || child.accepts .absent := by
  induction properties with
  | nil => rfl
  | cons name follows child rest ih =>
    rw [productiveProperties, ih]
    rfl

theorem productiveAny_eq (alternatives : List Schema) :
    productiveAny alternatives = alternatives.any productive := by
  induction alternatives with
  | nil => rfl
  | cons s rest ih => rw [productiveAny, ih, List.any_cons]

theorem productiveKind_object_iff {properties : NameMap Schema} :
    productiveKind (.object properties) = true ↔
      ∀ child ∈ properties.items, child.productive = true ∨ child.accepts .absent = true := by
  simp [productiveKind, productiveProperties_eq]

theorem productiveKind_union_iff {alternatives : List Schema} :
    productiveKind (.union alternatives) = true ↔ ∃ s ∈ alternatives, s.productive = true := by
  simp [productiveKind, productiveAny_eq]

theorem productive_eq (s : Schema) : s.productive = productiveKind s.kind := by
  cases s
  rw [productive]

/-! ## Accepted values -/

variable {s : Schema} {v : Value}

/-- Only productive schemas accept what is present. -/
theorem productive_of_accepts (present : v ≠ .absent) (accepted : s.accepts v = true) :
    s.productive = true := by
  induction s using Schema.induction generalizing v with
  | node kind required refinements ih =>
    obtain ⟨admitted, -⟩ :=
      (accepts_of_not_settles (not_settles_of_ne_absent present)).mp accepted
    rw [productive_eq]
    cases kind with
    | unset => exact admitted.elim
    | string | number | boolean | array => rfl
    | object properties =>
      refine productiveKind_object_iff.mpr fun child mem => ?_
      obtain ⟨name, found⟩ := Bindings.mem_items_iff.mp mem
      rcases admitted with ⟨-, parts⟩ | ⟨-, undeclared⟩
      · have part := parts name child found
        by_cases missing : v.get name = .absent
        · exact .inr (missing ▸ part)
        · exact .inl (ih child mem missing part)
      · rw [undeclared name] at found
        cases found
    | union alternatives =>
      rcases admitted with ⟨-, absent⟩ | ⟨alternative, mem, accepted⟩
      · exact (present absent).elim
      · exact productiveKind_union_iff.mpr ⟨alternative, mem, ih alternative mem present accepted⟩

theorem accepts_of_plain (plain : s.refinements = []) (present : v ≠ .absent) :
    s.accepts v = true ↔ s.kind.Admits (fun s v => s.accepts v = true) s.required v := by
  rw [accepts_of_not_settles (not_settles_of_ne_absent present), plain]
  simp

/-- Where every declared schema accepts something, an object can be put together from that. -/
theorem exists_object {properties : NameMap Schema}
    (h : ∀ child ∈ properties.items, ∃ v, child.accepts v = true) :
    ∃ values : NameMap Value, ∀ name child, properties.get? name = some child →
      child.accepts ((Value.object values).get name) = true := by
  have part : ∀ child, ∃ v, child ∈ properties.items → child.accepts v = true := by
    intro child
    by_cases mem : child ∈ properties.items
    · obtain ⟨v, accepted⟩ := h child mem
      exact ⟨v, fun _ => accepted⟩
    · exact ⟨.absent, fun mem' => (mem mem').elim⟩
  choose sample accepted using part
  refine ⟨properties.map sample, fun name child found => ?_⟩
  rw [Value.get_object, Bindings.get?_map, found]
  exact accepted child (Bindings.mem_items_iff.mpr ⟨name, found⟩)

/-- Without refinements, a productive schema accepts something present. -/
theorem exists_present (plain : s.Everywhere fun t => t.refinements = [])
    (h : s.productive = true) : ∃ v, v ≠ .absent ∧ s.accepts v = true := by
  induction s using Schema.induction with
  | node kind required refinements ih =>
    have admits {v : Value} (present : v ≠ .absent) (admitted : kind.Admits _ required v) :
        ∃ v, v ≠ .absent ∧ (⟨kind, required, refinements⟩ : Schema).accepts v = true :=
      ⟨v, present, (accepts_of_plain plain.root present).mpr admitted⟩
    rw [productive_eq] at h
    cases kind with
    | unset => cases h
    | string => exact admits (v := .string "") nofun rfl
    | number => exact admits (v := .number (.ofBits 0)) nofun rfl
    | boolean => exact admits (v := .boolean false) nofun rfl
    | array element => exact admits (v := .array []) nofun (.inl ⟨[], rfl, nofun⟩)
    | object properties =>
      have parts : ∀ child ∈ properties.items, ∃ v, child.accepts v = true := by
        intro child mem
        rcases productiveKind_object_iff.mp h child mem with productive | absent
        · obtain ⟨v, -, accepted⟩ := ih child mem (plain.child mem) productive
          exact ⟨v, accepted⟩
        · exact ⟨.absent, absent⟩
      obtain ⟨values, accepted⟩ := exists_object parts
      exact admits (v := .object values) nofun (.inl ⟨.inl rfl, accepted⟩)
    | union alternatives =>
      obtain ⟨alternative, mem, productive⟩ := productiveKind_union_iff.mp h
      obtain ⟨v, present, accepted⟩ := ih alternative mem (plain.child mem) productive
      exact admits present (.inr ⟨alternative, mem, accepted⟩)

/-- A schema is productive if all its nodes are declared and all its unions have alternatives. -/
theorem productive_of_declared (declared : s.Everywhere fun t => t.kind ≠ .unset)
    (unions : s.Everywhere fun t => t.kind ≠ .union []) : s.productive = true := by
  induction s using Schema.induction with
  | node kind required refinements ih =>
    have child (c : Schema) (mem : c ∈ kind.children) : c.productive = true :=
      ih c mem (declared.child mem) (unions.child mem)
    rw [productive_eq]
    cases kind with
    | unset => exact (declared.root rfl).elim
    | string | number | boolean | array => rfl
    | object properties => exact productiveKind_object_iff.mpr fun c mem => .inl (child c mem)
    | union alternatives =>
      cases alternatives with
      | nil => exact (unions.root rfl).elim
      | cons first rest =>
        exact productiveKind_union_iff.mpr
          ⟨first, List.mem_cons_self, child first List.mem_cons_self⟩

/-- Without refinements, the productive schemas are those that accept a present value.  Declared
schemas whose unions have alternatives are among them. -/
theorem exists_present_iff_productive (s : Schema)
    (plain : s.Everywhere fun t => t.refinements = []) :
    ((∃ v, v ≠ .absent ∧ s.accepts v = true) ↔ s.productive = true) ∧
    (s.ensureDeclared = .ok () → (s.Everywhere fun t => t.kind ≠ .union []) →
      ∃ v, v ≠ .absent ∧ s.accepts v = true) := by
  refine ⟨⟨?_, exists_present plain⟩, fun declared unions => ?_⟩
  · rintro ⟨v, present, accepted⟩
    exact productive_of_accepts present accepted
  · exact exists_present plain
      (productive_of_declared (ensureDeclared_eq_ok_iff_everywhere.mp declared) unions)

/-- An object with a union for its property. -/
theorem exists_present_iff_productive_object :
    ((blank.object [("id", blank.oneOf [blank.string])]).Everywhere fun t => t.refinements = []) ∧
    ((∃ v, v ≠ .absent ∧ (blank.object [("id", blank.oneOf [blank.string])]).accepts v = true) ↔
      (blank.object [("id", blank.oneOf [blank.string])]).productive = true) ∧
    (blank.object [("id", blank.oneOf [blank.string])]).ensureDeclared = .ok () ∧
    ((blank.object [("id", blank.oneOf [blank.string])]).Everywhere fun t => t.kind ≠ .union []) ∧
    ∃ v, v ≠ .absent ∧ (blank.object [("id", blank.oneOf [blank.string])]).accepts v = true := by
  have nodes : (blank.object [("id", blank.oneOf [blank.string])]).Everywhere fun t =>
      t.refinements = [] ∧ t.kind ≠ .union [] := by
    refine everywhere_iff.mpr ⟨⟨rfl, nofun⟩, fun c hc => ?_⟩
    obtain rfl := List.mem_singleton.mp hc
    refine everywhere_iff.mpr ⟨⟨rfl, nofun⟩, fun c hc => ?_⟩
    obtain rfl := List.mem_singleton.mp hc
    exact everywhere_iff.mpr ⟨⟨rfl, nofun⟩, nofun⟩
  have plain := fun p node found => (nodes p node found).1
  have unions := fun p node found => (nodes p node found).2
  have declared : (blank.object [("id", blank.oneOf [blank.string])]).ensureDeclared = .ok () := by
    decide
  obtain ⟨iff, accepts⟩ := exists_present_iff_productive _ plain
  exact ⟨plain, iff, declared, unions, accepts declared unions⟩

example : (blank.object [("id", blank.oneOf [])]).ensureDeclared = .ok () ∧
    (blank.object [("id", blank.oneOf [])]).productive = false := by decide

end Schema

end SchemaValidation
