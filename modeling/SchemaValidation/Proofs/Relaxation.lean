import SchemaValidation.Predicate
import SchemaValidation.Proofs.Context
import Mathlib.Logic.Relation

/-!
# Relaxation

A relaxation of a schema asks no more than the schema at any node: it may be optional where the
schema is required, lack refinements and declared properties, and have further alternatives, all of
it at many nodes at once.  What a schema accepts, its relaxations accept.

Absence makes this less obvious than it looks.  A node may come to answer an absent value by its
flag, an object without properties left starts to take null, and the refinements of optional arrays
and unions still see the absent value.  One step of it is `Schema.accepts_of_below`; the induction is
on the schema that is relaxed.
-/

namespace SchemaValidation

/-- `Relaxes s t`: node by node, `t` asks no more than `s`.  The children of the kinds are matched
by a part `R` of the relation, which `relaxes_iff` replaces by all of it. -/
inductive Relaxes : Schema → Schema → Prop
  | node {s t : Schema} {R : Schema → Schema → Prop} (part : ∀ a b, R a b → Relaxes a b)
      (kind : s.kind.Below R t.kind) (flag : s.required = false → t.required = false)
      (refinements : t.refinements.Sublist s.refinements) : Relaxes s t

/-- The kinds have one name and their children match, the flag is not stricter, and the refinements
are some of those before. -/
theorem relaxes_iff {s t : Schema} :
    Relaxes s t ↔
      s.kind.Below Relaxes t.kind ∧ (s.required = false → t.required = false) ∧
        t.refinements.Sublist s.refinements := by
  constructor
  · rintro ⟨part, kind, flag, refinements⟩
    exact ⟨kind.mono fun a _ => part a, flag, refinements⟩
  · rintro ⟨kind, flag, refinements⟩
    exact .node (fun _ _ => id) kind flag refinements

/-- One relaxation of the node at the root. -/
inductive Loosens : Schema → Schema → Prop
  | refinements {kind : Kind Schema} {required : Bool} {ps qs : List Predicate}
      (h : qs.Sublist ps) : Loosens ⟨kind, required, ps⟩ ⟨kind, required, qs⟩
  | optional (s : Schema) : Loosens s s.optional
  | properties {p q : NameMap Schema} {required : Bool} {ps : List Predicate}
      (h : ∀ name s, q.get? name = some s → p.get? name = some s) :
      Loosens ⟨.object p, required, ps⟩ ⟨.object q, required, ps⟩
  | alternatives {as bs : List Schema} {required : Bool} {ps : List Predicate} (h : as ⊆ bs) :
      Loosens ⟨.union as, required, ps⟩ ⟨.union bs, required, ps⟩

/-- One relaxation of a node anywhere. -/
inductive LoosensAt : Schema → Schema → Prop
  | fill (C : Context) {a b : Schema} (h : Loosens a b) : LoosensAt (C.fill a) (C.fill b)

namespace Kind

variable {σ τ υ : Type} {R : σ → τ → Prop} {R' : τ → υ → Prop}

theorem Below.comp {k : Kind σ} {l : Kind τ} {m : Kind υ} (h : Below R k l) (h' : Below R' l m) :
    Below (fun s u => ∃ t, R s t ∧ R' t u) k m := by
  cases h with
  | unset => cases h'; exact .unset
  | string => cases h'; exact .string
  | number => cases h'; exact .number
  | boolean => cases h'; exact .boolean
  | object children =>
    cases h' with
    | object children' =>
      refine .object fun name u hu => ?_
      obtain ⟨t, ht, htu⟩ := children' name u hu
      obtain ⟨s, hs, hst⟩ := children name t ht
      exact ⟨s, hs, t, hst, htu⟩
  | array element =>
    cases h' with
    | array element' => exact .array ⟨_, element, element'⟩
  | union alternatives =>
    cases h' with
    | union alternatives' =>
      refine .union fun a ha => ?_
      obtain ⟨b, hb, hab⟩ := alternatives a ha
      obtain ⟨c, hc, hbc⟩ := alternatives' b hb
      exact ⟨c, hc, b, hab, hbc⟩

end Kind

namespace Relaxes

theorem refl (s : Schema) : Relaxes s s := by
  induction s using Schema.induction with
  | node kind required refinements ih =>
    exact relaxes_iff.mpr ⟨Kind.below_self ih, id, List.Sublist.refl refinements⟩

theorem trans {s t u : Schema} (h : Relaxes s t) (h' : Relaxes t u) : Relaxes s u := by
  induction s using Schema.induction generalizing t u with
  | node kind required refinements ih =>
    obtain ⟨kind, flag, sub⟩ := relaxes_iff.mp h
    obtain ⟨kind', flag', sub'⟩ := relaxes_iff.mp h'
    refine relaxes_iff.mpr ⟨(kind.comp kind').mono ?_, flag' ∘ flag, sub'.trans sub⟩
    rintro s hs u ⟨t, hst, htu⟩
    exact ih s hs hst htu

/-- What a schema accepts, its relaxations accept. -/
theorem accepts {s t : Schema} (h : Relaxes s t) (v : Value) (hv : s.accepts v = true) :
    t.accepts v = true := by
  induction s using Schema.induction generalizing t v with
  | node kind required refinements ih =>
    obtain ⟨kind, flag, sub⟩ := relaxes_iff.mp h
    refine Schema.accepts_of_below kind flag sub.subset ?_ hv
    intro s hs t hst v
    exact ih s hs hst v

/-- Relaxing a part relaxes the whole. -/
theorem fill (C : Context) {a b : Schema} (h : Relaxes a b) : Relaxes (C.fill a) (C.fill b) := by
  refine Context.fill_rel refl ?_ C h
  intro k l kind required refinements
  exact relaxes_iff.mpr ⟨kind, id, List.Sublist.refl refinements⟩

end Relaxes

theorem Loosens.relaxes {s t : Schema} (h : Loosens s t) : Relaxes s t := by
  have self (k : Kind Schema) : k.Below Relaxes k := Kind.below_self fun s _ => .refl s
  cases h with
  | refinements sub => exact relaxes_iff.mpr ⟨self _, id, sub⟩
  | optional => exact relaxes_iff.mpr ⟨self _, fun _ => rfl, List.Sublist.refl _⟩
  | properties declared =>
    refine relaxes_iff.mpr ⟨.object fun name t ht => ?_, id, List.Sublist.refl _⟩
    exact ⟨t, declared name t ht, .refl t⟩
  | alternatives sub =>
    refine relaxes_iff.mpr ⟨.union fun a ha => ?_, id, List.Sublist.refl _⟩
    exact ⟨a, sub ha, .refl a⟩

/-- A relaxation accepts whatever the schema accepts, and any number of loosenings, at any nodes,
make a relaxation. -/
theorem accepts_of_relaxes :
    (∀ {s t : Schema}, Relaxes s t → ∀ v, s.accepts v = true → t.accepts v = true) ∧
      ∀ {s t : Schema}, Relation.ReflTransGen LoosensAt s t → Relaxes s t := by
  refine ⟨fun h => h.accepts, fun steps => ?_⟩
  induction steps with
  | refl => exact .refl _
  | tail _ step ih =>
    cases step with
    | fill C h => exact ih.trans (.fill C h.relaxes)

/-- The elements lose a refinement, and then the array may be absent. -/
theorem accepts_optional_arrayOf_string :
    (Schema.blank.arrayOf (Schema.blank.string.which (Predicate.string (· = "a")))).accepts
        (.array [.string "a"]) = true ∧
      (Schema.blank.arrayOf Schema.blank.string).optional.accepts
        (.array [.string "a"]) = true := by
  have accepted : (Schema.blank.arrayOf
      (Schema.blank.string.which (Predicate.string (· = "a")))).accepts
        (.array [.string "a"]) = true := by decide
  have dropped : Loosens (Schema.blank.string.which (Predicate.string (· = "a")))
      Schema.blank.string := .refinements (List.nil_sublist _)
  have steps : Relation.ReflTransGen LoosensAt
      (Schema.blank.arrayOf (Schema.blank.string.which (Predicate.string (· = "a"))))
      (Schema.blank.arrayOf Schema.blank.string).optional :=
    .tail (.single (.fill (.element .hole true []) dropped)) (.fill .hole (.optional _))
  exact ⟨accepted, accepts_of_relaxes.1 (accepts_of_relaxes.2 steps) _ accepted⟩

end SchemaValidation
