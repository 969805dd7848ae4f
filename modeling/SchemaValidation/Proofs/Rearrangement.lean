import SchemaValidation.Predicate
import SchemaValidation.Proofs.Context
import Mathlib.Logic.Relation

/-!
# Rearrangement

Alternatives and refinements are kept in lists and tried in order, but to the verdict they are sets.
Neither their order nor how often they occur matters, a union among the alternatives of another may
give way to its own alternatives, and a schema is as good as the union of nothing else.

Each of these is a change of one node (`Rearranges`) that leaves alone what the node accepts, absence
included.  A context sees no more of a node than that, so the change may be made anywhere
(`RearrangesAt`), and any number of such changes one after the other.
-/

namespace SchemaValidation

/-- One rearrangement of the node at the root. -/
inductive Rearranges : Schema → Schema → Prop
  /-- Alternatives change places, or occur more or less often. -/
  | alternatives {as bs : List Schema} {required : Bool} {refinements : List Predicate}
      (kept : as ⊆ bs) (known : bs ⊆ as) :
      Rearranges ⟨.union as, required, refinements⟩ ⟨.union bs, required, refinements⟩
  /-- Refinements change places, or occur more or less often. -/
  | refinements {kind : Kind Schema} {required : Bool} {ps qs : List Predicate}
      (kept : ps ⊆ qs) (known : qs ⊆ ps) :
      Rearranges ⟨kind, required, ps⟩ ⟨kind, required, qs⟩
  /-- A required union without refinements gives way to its alternatives, if it has any. -/
  | flatten (before inner after : List Schema) {required : Bool} {refinements : List Predicate} :
      Rearranges ⟨.union (before ++ ⟨.union inner, true, []⟩ :: after), required, refinements⟩
        ⟨.union (before ++ inner ++ after), required, refinements⟩
  /-- A schema becomes the only alternative of a union. -/
  | single (s : Schema) : Rearranges s ⟨.union [s], true, []⟩

/-- One rearrangement of a node anywhere. -/
inductive RearrangesAt : Schema → Schema → Prop
  | fill (C : Context) {a b : Schema} (h : Rearranges a b) : RearrangesAt (C.fill a) (C.fill b)

namespace Schema

variable {as bs : List Schema} {required : Bool} {refinements : List Predicate} {v : Value}

/-- A union without a flag or refinements of its own accepts what one of its alternatives accepts. -/
theorem accepts_union_required_iff :
    accepts ⟨.union as, true, []⟩ v = true ↔ ∃ a ∈ as, a.accepts v = true := by
  simp [accepts_union_iff]

/-- Of its alternatives a union asks what they accept between them. -/
theorem accepts_union_congr
    (h : (∃ a ∈ as, a.accepts v = true) ↔ ∃ b ∈ bs, b.accepts v = true) :
    accepts ⟨.union as, required, refinements⟩ v =
      accepts ⟨.union bs, required, refinements⟩ v := by
  rw [Bool.eq_iff_iff, accepts_union_iff, accepts_union_iff, h]

/-- Of its refinements a node asks that they all hold. -/
theorem accepts_of_refinements_subset {kind : Kind Schema} {ps qs : List Predicate} (sub : qs ⊆ ps)
    (h : accepts ⟨kind, required, ps⟩ v = true) : accepts ⟨kind, required, qs⟩ v = true := by
  have self : kind.Below (· = ·) kind := Kind.below_self fun _ _ => rfl
  refine accepts_of_below (s := ⟨kind, required, ps⟩) (t := ⟨kind, required, qs⟩) self id sub ?_ h
  rintro a _ _ rfl w accepted
  exact accepted

end Schema

/-- A rearranged node accepts the same values. -/
theorem Rearranges.accepts_eq {s t : Schema} (h : Rearranges s t) (v : Value) :
    s.accepts v = t.accepts v := by
  cases h with
  | alternatives kept known =>
    apply Schema.accepts_union_congr
    constructor
    · rintro ⟨a, mem, accepted⟩
      exact ⟨a, kept mem, accepted⟩
    · rintro ⟨b, mem, accepted⟩
      exact ⟨b, known mem, accepted⟩
  | refinements kept known =>
    rw [Bool.eq_iff_iff]
    constructor
    · exact Schema.accepts_of_refinements_subset known
    · exact Schema.accepts_of_refinements_subset kept
  | flatten before inner after =>
    apply Schema.accepts_union_congr
    simp only [List.mem_append, List.mem_cons, or_and_right, exists_or, exists_eq_left,
      Schema.accepts_union_required_iff, or_assoc]
  | single =>
    rw [Bool.eq_iff_iff, Schema.accepts_union_required_iff]
    simp

/-- A rearrangement of a node does not show in what the whole accepts. -/
theorem RearrangesAt.accepts_eq {s t : Schema} (h : RearrangesAt s t) (v : Value) :
    s.accepts v = t.accepts v := by
  obtain ⟨C, rearranged⟩ := h
  rw [Bool.eq_iff_iff]
  constructor
  · exact C.accepts_mono (fun w accepted => rearranged.accepts_eq w ▸ accepted) v
  · exact C.accepts_mono (fun w accepted => rearranged.accepts_eq w ▸ accepted) v

/-- Any number of rearrangements, at any nodes and in either direction, leave every verdict as it
is. -/
theorem Schema.result_validate_eq_of_rearranges {s t : Schema}
    (h : Relation.EqvGen RearrangesAt s t) (v : Value) :
    (s.validate v).result = (t.validate v).result := by
  induction h with
  | rel s t step => exact step.accepts_eq v
  | refl s => rfl
  | symm s t _ ih => exact ih.symm
  | trans s t u _ _ ih ih' => exact ih.trans ih'

/-- Below an array, a union loses an inner union and its alternatives change places, and so do the
refinements of one of them. -/
theorem Schema.result_validate_eq_of_rearranges_arrayOf :
    Relation.EqvGen RearrangesAt
      (blank.arrayOf (blank.oneOf [blank.boolean, blank.oneOf
        [(blank.string.which (.string (· ≠ ""))).which (.string (· ≠ "a"))]]))
      (blank.arrayOf (blank.oneOf
        [(blank.string.which (.string (· ≠ "a"))).which (.string (· ≠ "")), blank.boolean])) ∧
    ((blank.arrayOf (blank.oneOf [blank.boolean, blank.oneOf
        [(blank.string.which (.string (· ≠ ""))).which (.string (· ≠ "a"))]])).validate
          (.array [.boolean true, .string "a"])).result =
      ((blank.arrayOf (blank.oneOf
        [(blank.string.which (.string (· ≠ "a"))).which (.string (· ≠ "")), blank.boolean])).validate
          (.array [.boolean true, .string "a"])).result := by
  have rearranged : Relation.EqvGen RearrangesAt
      (blank.arrayOf (blank.oneOf [blank.boolean, blank.oneOf
        [(blank.string.which (.string (· ≠ ""))).which (.string (· ≠ "a"))]]))
      (blank.arrayOf (blank.oneOf
        [(blank.string.which (.string (· ≠ "a"))).which (.string (· ≠ "")), blank.boolean])) := by
    have swap {α : Type} (a b : α) : [a, b] ⊆ [b, a] := (List.Perm.swap b a []).subset
    have flatten (a b : Schema) : RearrangesAt
        (blank.arrayOf (blank.oneOf [a, blank.oneOf [b]])) (blank.arrayOf (blank.oneOf [a, b])) :=
      .fill (.element .hole true []) (.flatten [a] [b] [])
    have alternatives (a b : Schema) : RearrangesAt
        (blank.arrayOf (blank.oneOf [a, b])) (blank.arrayOf (blank.oneOf [b, a])) :=
      .fill (.element .hole true []) (.alternatives (swap a b) (swap b a))
    have refinements (p q : Predicate) (a : Schema) : RearrangesAt
        (blank.arrayOf (blank.oneOf [(blank.string.which p).which q, a]))
        (blank.arrayOf (blank.oneOf [(blank.string.which q).which p, a])) :=
      .fill (.element (.alternative [] .hole [a] true []) true [])
        (.refinements (swap p q) (swap q p))
    exact .trans _ _ _ (.rel _ _ (flatten _ _))
      (.trans _ _ _ (.rel _ _ (alternatives _ _)) (.rel _ _ (refinements _ _ _)))
  exact ⟨rearranged, result_validate_eq_of_rearranges rearranged _⟩

end SchemaValidation
