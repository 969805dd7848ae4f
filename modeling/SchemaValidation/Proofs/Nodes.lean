import SchemaValidation.Proofs.NameMap
import SchemaValidation.Schema.Position

/-!
# Nodes of a schema

The nodes of a schema are what its positions lead to.  `Schema.Everywhere P` says something of all
of them, and `Schema.everywhere_iff` says it of the root and, one step down, of the children.
-/

namespace SchemaValidation

namespace Schema

/-- The children are what single steps lead to. -/
theorem mem_children_iff {s c : Schema} :
    c ∈ s.kind.children ↔ ∃ step, s.child? step = some c := by
  obtain ⟨kind, required, refinements⟩ := s
  cases kind with
  | unset | string | number | boolean => simp [Kind.children, child?]
  | object properties =>
    constructor
    · intro h
      obtain ⟨name, found⟩ := Bindings.mem_items_iff.mp h
      exact ⟨.property name, found⟩
    · rintro ⟨step, h⟩
      cases step with
      | property name => exact Bindings.mem_items_iff.mpr ⟨name, h⟩
      | element | alternative => cases h
  | array element =>
    constructor
    · intro h
      exact ⟨.element, congrArg some (List.mem_singleton.mp h).symm⟩
    · rintro ⟨step, h⟩
      cases step with
      | element => exact List.mem_singleton.mpr (Option.some.inj h).symm
      | property | alternative => cases h
  | union alternatives =>
    constructor
    · intro h
      obtain ⟨index, found⟩ := List.mem_iff_getElem?.mp h
      exact ⟨.alternative index, found⟩
    · rintro ⟨step, h⟩
      cases step with
      | alternative index => exact List.mem_iff_getElem?.mpr ⟨index, h⟩
      | property | element => cases h

/-- Every node of the schema is as `P` says. -/
def Everywhere (P : Schema → Prop) (s : Schema) : Prop :=
  ∀ position node, s.node? position = some node → P node

theorem everywhere_iff {P : Schema → Prop} {s : Schema} :
    s.Everywhere P ↔ P s ∧ ∀ c ∈ s.kind.children, c.Everywhere P := by
  constructor
  · intro h
    refine ⟨h [] s rfl, fun c hc position node found => ?_⟩
    obtain ⟨step, hs⟩ := mem_children_iff.mp hc
    refine h (step :: position) node ?_
    rw [node?, hs, Option.bind_some, found]
  · rintro ⟨root, below⟩ position node found
    cases position with
    | nil => exact Option.some.inj found ▸ root
    | cons step rest =>
      obtain ⟨c, hs, hc⟩ := Option.bind_eq_some_iff.mp found
      exact below c (mem_children_iff.mpr ⟨step, hs⟩) rest node hc

theorem Everywhere.root {P : Schema → Prop} {s : Schema} (h : s.Everywhere P) : P s :=
  (everywhere_iff.mp h).1

theorem Everywhere.child {P : Schema → Prop} {s c : Schema} (h : s.Everywhere P)
    (hc : c ∈ s.kind.children) : c.Everywhere P :=
  (everywhere_iff.mp h).2 c hc

end Schema

end SchemaValidation
