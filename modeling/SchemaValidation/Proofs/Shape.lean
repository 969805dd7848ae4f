import SchemaValidation.Proofs.Agreement
import SchemaValidation.Proofs.PathText
import SchemaValidation.Schema.Outline

/-!
# Shapes of schemas

The shape of a schema is the kind, the flag and the number of refinements of every node, with the
names of the properties and the alternatives in order.  Schemas of the same shape may accept
different values, since their refinements may differ.

`Schema.SameShape` compares two schemas position by position.  Their outlines are equal in just that
case (`Schema.outline_eq_iff_sameShape`), so an outline holds nothing beyond the shape.
-/

namespace SchemaValidation

namespace Kind

variable {σ : Type} {k l : Kind σ}

/-- A kind is determined by its name and its steps. -/
theorem eq_of_steps_eq (name : k.name = l.name) (steps : k.steps = l.steps) : k = l := by
  cases k <;> cases l <;> cases name
  case object.object p q =>
    have injective : Function.Injective fun b : String × σ => (Step.property b.1, b.2) := by
      rintro ⟨m, c⟩ ⟨n, d⟩ same
      cases same
      rfl
    rw [Bindings.toList_injective (List.map_injective_iff.mpr injective steps)]
  case array.array c d =>
    cases steps
    rfl
  case union.union as bs =>
    have alternatives : as = bs := by
      simpa [Kind.steps, Function.comp_def] using congrArg (List.map Prod.snd) steps
    rw [alternatives]
  all_goals rfl

end Kind

namespace Schema

theorem outline_eq (s : Schema) :
    s.outline = ⟨outlineKind s.kind, s.required, s.refinements.length⟩ := by
  obtain ⟨kind, required, refinements⟩ := s
  rw [outline]

section

variable (k : Kind Schema)

theorem name_outlineKind : (outlineKind k).name = k.name := by
  cases k <;> rfl

theorem steps_outlineKind :
    (outlineKind k).steps = k.steps.map (Prod.map id outline) := by
  cases k with
  | unset | string | number | boolean | array => rfl
  | object properties =>
    rw [outlineKind, outlineProperties_eq_map, Kind.steps, Kind.steps, Bindings.toList_map]
    simp
  | union alternatives =>
    rw [outlineKind, outlineAll_eq_map, Kind.steps, Kind.steps, List.zipIdx_map]
    simp

theorem propertyNames_outlineKind : (outlineKind k).propertyNames = k.propertyNames := by
  cases k with
  | unset | string | number | boolean | array | union => rfl
  | object properties =>
    rw [outlineKind, outlineProperties_eq_map, Kind.propertyNames, Kind.propertyNames,
      Bindings.names, Bindings.names, Bindings.toList_map]
    simp

theorem children_outlineKind : (outlineKind k).children = k.children.map outline := by
  cases k with
  | unset | string | number | boolean | array => rfl
  | object properties =>
    rw [outlineKind, outlineProperties_eq_map, Kind.children, Kind.children,
      Bindings.items, Bindings.items, Bindings.toList_map]
    simp
  | union alternatives =>
    rw [outlineKind, outlineAll_eq_map]
    rfl

end

/-- Outlines of kinds are compared like the kinds, step by step. -/
theorem outlineKind_eq_iff {k l : Kind Schema} : outlineKind k = outlineKind l ↔
    k.name = l.name ∧
      List.Forall₂ (fun a b => a.1 = b.1 ∧ a.2.outline = b.2.outline) k.steps l.steps := by
  have steps_iff : (outlineKind k).steps = (outlineKind l).steps ↔
      List.Forall₂ (fun a b => a.1 = b.1 ∧ a.2.outline = b.2.outline) k.steps l.steps := by
    rw [steps_outlineKind, steps_outlineKind, ← List.forall₂_eq_eq_eq, List.forall₂_map_left_iff,
      List.forall₂_map_right_iff]
    simp only [Prod.map, id, Prod.mk.injEq]
  rw [← steps_iff, ← name_outlineKind k, ← name_outlineKind l]
  constructor
  · intro h
    rw [h]
    exact ⟨rfl, rfl⟩
  · rintro ⟨name, steps⟩
    exact Kind.eq_of_steps_eq name steps

end Schema

/-- What is seen of a node by itself. -/
structure Face where
  kind : KindName
  required : Bool
  refinements : Nat
  /-- The declared names, in order. -/
  names : List String
  /-- How many children the node has. -/
  children : Nat
deriving DecidableEq, Repr

namespace Schema

def face (s : Schema) : Face :=
  ⟨s.kind.name, s.required, s.refinements.length, s.kind.propertyNames, s.kind.children.length⟩

/-- The schemas have the same positions, and the nodes at each of them look the same.  Their
refinements are counted and not compared. -/
def SameShape (s t : Schema) : Prop := s.AgreeIn face t

variable {s t : Schema}

theorem face_eq_of_outline_eq (h : s.outline = t.outline) : s.face = t.face := by
  have seen (s : Schema) : s.face = ⟨s.outline.kind.name, s.outline.required, s.outline.refinements,
      s.outline.kind.propertyNames, s.outline.kind.children.length⟩ := by
    rw [outline_eq, face, name_outlineKind, propertyNames_outlineKind, children_outlineKind,
      List.length_map]
  rw [seen, seen, h]

theorem outline_eq_iff : s.outline = t.outline ↔
    s.face = t.face ∧
      ∀ step, Option.Rel (fun c d => c.outline = d.outline) (s.child? step) (t.child? step) := by
  rw [← forall₂_steps_iff]
  constructor
  · intro h
    have kinds : outlineKind s.kind = outlineKind t.kind := by
      rw [outline_eq, outline_eq] at h
      exact congrArg Outline.kind h
    exact ⟨face_eq_of_outline_eq h, (outlineKind_eq_iff.mp kinds).2⟩
  · rintro ⟨faces, steps⟩
    have kinds := outlineKind_eq_iff.mpr ⟨congrArg Face.kind faces, steps⟩
    have flags : s.required = t.required := congrArg Face.required faces
    have counts : s.refinements.length = t.refinements.length := congrArg Face.refinements faces
    rw [outline_eq, outline_eq, kinds, flags, counts]

/-- The outline shows the shape, and nothing else. -/
theorem outline_eq_iff_sameShape : s.outline = t.outline ↔ s.SameShape t := by
  induction s using Schema.induction generalizing t with
  | node kind required refinements ih =>
    rw [outline_eq_iff, SameShape, agreeIn_iff]
    refine and_congr_right fun _ => forall_congr' fun step => ?_
    exact optionRel_congr_of_mem fun c hc d =>
      ih c (mem_children_iff (s := ⟨kind, required, refinements⟩).mpr ⟨step, hc⟩)

end Schema

end SchemaValidation
