import SchemaValidation.Proofs.NameMap
import SchemaValidation.Value.Equality

/-!
# Values in depth

What occurs in a value, what a chain of lookups finds in it, and when two values are equal, at
whatever depth.

Composite values are equal if their parts are (`Value.array_beq_iff`, `Value.object_beq_iff`), so
only a NaN that occurs in it can make a value differ from itself (`Value.beq_self_iff`).
-/

namespace SchemaValidation

namespace Value

variable {v : Value} {items : List Value} {properties : NameMap Value}

/-! ## Occurrence -/

/-- The first value is the second, or occurs in a part of it. -/
inductive Occurs (v : Value) : Value → Prop
  | here : Occurs v v
  | item {items : List Value} {w : Value} (mem : w ∈ items) (inside : Occurs v w) :
      Occurs v (.array items)
  | property {properties : NameMap Value} {name : String} {w : Value}
      (found : properties.get? name = some w) (inside : Occurs v w) : Occurs v (.object properties)

/-- No NaN occurs in the value. -/
def NaNFree (v : Value) : Prop := ∀ x, Occurs (.number x) v → x.isNaN = false

theorem nanFree_number_iff {x : Double} : NaNFree (.number x) ↔ x.isNaN = false := by
  constructor
  · intro free
    exact free x .here
  · intro number y occurs
    cases occurs
    exact number

theorem nanFree_array_iff : NaNFree (.array items) ↔ ∀ w ∈ items, NaNFree w := by
  constructor
  · intro free w mem x occurs
    exact free x (.item mem occurs)
  · intro free x occurs
    cases occurs with
    | item mem inside => exact free _ mem x inside

theorem nanFree_object_iff :
    NaNFree (.object properties) ↔ ∀ name w, properties.get? name = some w → NaNFree w := by
  constructor
  · intro free name w found x occurs
    exact free x (.property found occurs)
  · intro free x occurs
    cases occurs with
    | property found inside => exact free _ _ found x inside

end Value

/-! ## Lookups -/

/-- One lookup: of a property or of an element. -/
inductive Access where
  | property (name : String)
  | index (i : Nat)
deriving DecidableEq, Repr

namespace Value

/-- What a lookup finds, absent if it finds nothing. -/
def access (v : Value) : Access → Value
  | .property name => v.get name
  | .index i => v.item i

/-- What a chain of lookups leads to. -/
def follow (v : Value) (path : List Access) : Value := path.foldl access v

@[simp] theorem follow_nil (v : Value) : v.follow [] = v := rfl

@[simp] theorem follow_cons (v : Value) (a : Access) (path : List Access) :
    v.follow (a :: path) = (v.access a).follow path := rfl

@[simp] theorem access_absent (a : Access) : access .absent a = .absent := by cases a <;> rfl

/-- Nothing is found in what is not there. -/
@[simp] theorem follow_absent (path : List Access) : follow .absent path = .absent := by
  induction path with
  | nil => rfl
  | cons a path ih => rw [follow_cons, access_absent, ih]

/-! ## Equality -/

@[simp] theorem boolean_beq (b c : Bool) : (boolean b == boolean c) = (b == c) := rfl

@[simp] theorem number_beq (x y : Double) : (number x == number y) = (x == y) := rfl

@[simp] theorem string_beq (s t : String) : (string s == string t) = (s == t) := rfl

theorem list_beq_iff {α : Type} [BEq α] {xs ys : List α} :
    (xs == ys) = true ↔ List.Forall₂ (fun x y => (x == y) = true) xs ys := by
  induction xs generalizing ys with
  | nil => cases ys <;> simp
  | cons x xs ih => cases ys with
    | nil => simp
    | cons y ys => rw [List.cons_beq_cons, Bool.and_eq_true, ih, List.forall₂_cons]

theorem forall₂_congr_of_mem {α β : Type} {R S : α → β → Prop} {as : List α} {bs : List β}
    (h : ∀ a ∈ as, ∀ b, R a b ↔ S a b) : List.Forall₂ R as bs ↔ List.Forall₂ S as bs := by
  constructor
  · intro related
    exact ((List.forall₂_and_left _ _).mpr ⟨h, related⟩).imp fun _ _ both => (both.1 _).mp both.2
  · intro related
    exact ((List.forall₂_and_left _ _).mpr ⟨h, related⟩).imp fun _ _ both => (both.1 _).mpr both.2

/-- Arrays are equal if they have as many elements, which are equal one by one. -/
theorem array_beq_iff {xs ys : List Value} :
    (array xs == array ys) = true ↔ List.Forall₂ (fun v w => (v == w) = true) xs ys := by
  rw [array_beq, list_beq_iff]

/-- Objects are equal if equal values, or none, are found under each name. -/
theorem object_beq_iff {p q : NameMap Value} :
    (object p == object q) = true ↔
      ∀ name, Option.Rel (fun v w => (v == w) = true) (p.get? name) (q.get? name) := by
  rw [object_beq, list_beq_iff, ← Bindings.forall₂_toList_iff]
  have pairs (a b : String × Value) : (a == b) = true ↔ a.1 = b.1 ∧ (a.2 == b.2) = true := by
    rw [← beq_iff_eq (a := a.1), ← Bool.and_eq_true]
    rfl
  simp only [pairs]

/-- A value is equal to itself unless a NaN occurs in it. -/
theorem beq_self_iff {v : Value} : (v == v) = true ↔ v.NaNFree := by
  induction v using Value.induction with
  | absent | null =>
    refine iff_of_true rfl fun x occurs => ?_
    cases occurs
  | boolean | string =>
    refine iff_of_true (by simp) fun x occurs => ?_
    cases occurs
  | number x =>
    rw [nanFree_number_iff, number_beq, Double.beq_self, Bool.not_eq_true']
  | array items ih =>
    rw [array_beq_iff, List.forall₂_same, nanFree_array_iff]
    exact forall₂_congr ih
  | object properties ih =>
    rw [object_beq_iff, nanFree_object_iff]
    refine forall_congr' fun name => ?_
    rw [optionRel_self_iff]
    exact forall₂_congr fun w found => ih w (Bindings.mem_items_iff.mpr ⟨name, found⟩)

end Value

end SchemaValidation
