import SchemaValidation.Proofs.Acceptance
import SchemaValidation.Proofs.Search
import Mathlib.Data.List.Basic

/-!
# Visits

To evaluate a schema is to visit its nodes, each with a value: properties with what is looked up
under their names, elements with the items of the value, alternatives with the value itself.  The
visits that a type check may make, in its order, are the `Visit.parts`, and each is reached by a
`Turn`.

Apart from its parts a type check depends on the type of the value alone (`Visit.typed`).
`Visit.fits_eq` puts the two together for every kind but unions, and `Visit.fits_eq_search` for all:
a type check is a search through the parts.
-/

namespace SchemaValidation

/-- A node and the value that it judges. -/
structure Visit where
  node : Schema
  value : Value

/-- What a type check turns to next. -/
inductive Turn where
  | property (name : String)
  | item (index : Nat)
  | alternative (index : Nat)
deriving DecidableEq, Repr

/-- Turns at one node are taken in order of name or index. -/
def Turn.Precedes : Turn → Turn → Prop
  | .property m, .property n => m < n
  | .item i, .item j => i < j
  | .alternative i, .alternative j => i < j
  | _, _ => False

theorem Turn.Precedes.asymm {a b : Turn} (h : a.Precedes b) : ¬b.Precedes a := by
  cases a with
  | property m =>
    cases b with
    | property n => exact String.lt_asymm h
    | item | alternative => exact h.elim
  | item i =>
    cases b with
    | item j => exact Nat.lt_asymm h
    | property | alternative => exact h.elim
  | alternative i =>
    cases b with
    | alternative j => exact Nat.lt_asymm h
    | property | item => exact h.elim

/-- The turns from a visit to one below it. -/
abbrev Place : Type := List Turn

namespace Visit

def run (x : Visit) : Traced Bool := x.node.validate x.value

def accepted (x : Visit) : Bool := x.run.result

/-- The visits that the type check may make, in order. -/
def parts (x : Visit) : List (Turn × Visit) :=
  match x.node.kind with
  | .object properties =>
    if x.value.typeName = .object ∨ x.value.typeName = .array then
      properties.toList.map fun (name, child) => (.property name, ⟨child, x.value.get name⟩)
    else []
  | .array element =>
    (x.value.items?.getD []).zipIdx.map fun (item, index) => (.item index, ⟨element, item⟩)
  | .union alternatives =>
    if !x.node.required && x.value.isAbsent then []
    else alternatives.zipIdx.map fun (alternative, index) =>
      (.alternative index, ⟨alternative, x.value⟩)
  | _ => []

/-- The value is of a type that the kind takes, whatever its parts are. -/
def typed (x : Visit) : Bool :=
  match x.node.kind with
  | .unset => false
  | .string => x.value.typeName = .string
  | .number => x.value.typeName = .number
  | .boolean => x.value.typeName = .boolean
  | .object properties =>
    match x.value.typeName with
    | .object | .array => true
    | .null => properties.isEmpty
    | _ => false
  | .array _ => x.value.typeName = .array || (!x.node.required && x.value.isAbsent)
  | .union _ => true

/-- A part judges with a child of the node. -/
theorem mem_children_of_mem_parts {x y : Visit} {turn : Turn} (h : (turn, y) ∈ x.parts) :
    y.node ∈ x.node.kind.children := by
  obtain ⟨⟨kind, required, refinements⟩, v⟩ := x
  cases kind with
  | unset | string | number | boolean => simp [parts] at h
  | object properties =>
    obtain ⟨-, h⟩ := List.mem_ite_nil_right.mp h
    obtain ⟨binding, mem, eq⟩ := List.mem_map.mp h
    cases eq
    exact List.mem_map.mpr ⟨binding, mem, rfl⟩
  | array element =>
    obtain ⟨_, _, eq⟩ := List.mem_map.mp h
    cases eq
    exact List.mem_singleton_self element
  | union alternatives =>
    obtain ⟨-, h⟩ := List.mem_ite_nil_left.mp h
    obtain ⟨_, mem, eq⟩ := List.mem_map.mp h
    cases eq
    exact List.fst_mem_of_mem_zipIdx mem

/-- The turns to the parts increase. -/
theorem pairwise_parts (x : Visit) : x.parts.Pairwise fun a b => a.1.Precedes b.1 := by
  obtain ⟨⟨kind, required, refinements⟩, v⟩ := x
  cases kind with
  | unset | string | number | boolean => exact .nil
  | object properties =>
    simp only [parts]
    split
    · have names : properties.toList.Pairwise fun a b => a.1 < b.1 :=
        List.pairwise_map.mp properties.pairwise_names
      rw [List.pairwise_map]
      exact names
    · exact .nil
  | array element =>
    simp only [parts]
    rw [List.pairwise_map]
    exact pairwise_zipIdx _
  | union alternatives =>
    simp only [parts]
    split
    · exact .nil
    · rw [List.pairwise_map]
      exact pairwise_zipIdx alternatives

/-- A value of the wrong type has no parts. -/
theorem parts_eq_nil {x : Visit} (h : x.typed = false) : x.parts = [] := by
  obtain ⟨⟨kind, required, refinements⟩, v⟩ := x
  cases kind with
  | unset | string | number | boolean => rfl
  | object properties => cases v <;> first | rfl | exact nomatch h
  | array element => cases v <;> first | rfl | exact nomatch h
  | union alternatives => exact nomatch h

/-- A settled value has no parts. -/
theorem parts_of_settles {x : Visit} (h : x.node.Settles x.value) : x.parts = [] := by
  obtain ⟨⟨kind, required, refinements⟩, v⟩ := x
  obtain ⟨absent, handles⟩ := h
  cases absent
  cases kind with
  | array | union => exact nomatch handles
  | _ => rfl

/-- Unless it is a union, the type check puts the type first and then the parts, all of which are to
be accepted. -/
theorem fits_eq {x : Visit} (h : x.node.kind.name ≠ .union) :
    Schema.fits x.node.kind x.node.required x.value =
      if x.typed then x.parts.allM fun part => part.2.run else pure false := by
  obtain ⟨⟨kind, required, refinements⟩, v⟩ := x
  cases kind with
  | unset => rfl
  | string | number | boolean => cases v <;> rfl
  | object properties =>
    by_cases type : v.typeName = .object ∨ v.typeName = .array
    · have typed : typed ⟨⟨.object properties, required, refinements⟩, v⟩ = true := by
        rcases type with type | type <;> simp [typed, type]
      rw [typed, if_pos rfl, Schema.fits_object properties required v type]
      simp only [parts]
      rw [if_pos type, allM_map]
      rfl
    · cases v with
      | null =>
        -- null counts as an object only where no property is looked up, and so has no parts
        cases properties <;> rfl
      | absent | boolean | number | string => rfl
      | array | object => simp [Value.typeName] at type
  | array element =>
    cases v with
    | array items =>
      simp only [typed, parts, Value.items?, Option.getD_some]
      rw [allM_map, Schema.fits_array]
      exact (allM_zipIdx items).symm
    | absent => cases required <;> rfl
    | null | boolean | number | string | object => cases required <;> rfl
  | union alternatives => exact absurd rfl h

/-- Go through the parts as the type check does, given what it is to judge one. -/
def search {m : Type → Type} [Monad m] (x : Visit) (judge : Turn × Visit → m Bool) : m Bool :=
  if x.node.kind.name = .union then
    if !x.node.required && x.value.isAbsent then pure true else x.parts.anyM judge
  else if x.typed then x.parts.allM judge
  else pure false

/-- The type check evaluates its parts. -/
theorem fits_eq_search (x : Visit) :
    Schema.fits x.node.kind x.node.required x.value = x.search fun part => part.2.run := by
  rw [search]
  split
  next union =>
    obtain ⟨⟨kind, required, refinements⟩, v⟩ := x
    cases kind with
    | union alternatives =>
      simp only [Schema.fits_union, parts]
      split
      · rfl
      · rw [anyM_map]
        exact (anyM_zipIdx alternatives).symm
    | _ => cases union
  next other => exact fits_eq other

/-- A type check without its parts depends on the node and on the type of the value. -/
theorem typed_congr {x y : Visit} (node : x.node = y.node)
    (type : x.value.typeName = y.value.typeName) : x.typed = y.typed := by
  rw [typed, typed, node, type, Value.isAbsent, Value.isAbsent, type]

/-- A search depends, apart from that, on what it does with each of the parts. -/
theorem search_congr {m : Type → Type} [Monad m] {x y : Visit} {f g : Turn × Visit → m Bool}
    (node : x.node = y.node) (type : x.value.typeName = y.value.typeName)
    (parts : List.Forall₂ (fun a b => f a = g b) x.parts y.parts) : x.search f = y.search g := by
  rw [search, search, typed_congr node type, node, Value.isAbsent, Value.isAbsent, type,
    allM_congr parts, anyM_congr parts]

/-- Unless absence is settled, a visit accepts if the type check and all refinements hold. -/
theorem accepted_eq {x : Visit} (unsettled : ¬x.node.Settles x.value) :
    x.accepted = ((Schema.fits x.node.kind x.node.required x.value).result &&
      x.node.refinements.all fun p => (p x.value).result) := by
  rw [accepted, run, Schema.validate_of_not_settles unsettled, Traced.result_both,
    Traced.result_onReject, Schema.result_refinementsHold]

/-- The type check failed. -/
def typeRejection (x : Visit) : Event := .typeRejected x.node.kind.name x.value.typeName

/-- Refinement number `index` of the node is false on the value. -/
def Refuses (x : Visit) (index : Nat) : Prop :=
  ∃ p, x.node.refinements[index]? = some p ∧ (p x.value).result = false

/-- Where refinements are split at the first that does not hold, its number is the least that
refuses. -/
theorem refuses_length {x : Visit} {before after : List Predicate} {p : Predicate}
    (split : x.node.refinements = before ++ p :: after)
    (held : ∀ q ∈ before, (q x.value).result = true) (failed : (p x.value).result = false) :
    x.Refuses before.length ∧ ∀ i, x.Refuses i → before.length ≤ i := by
  refine ⟨⟨p, by simp [split], failed⟩, ?_⟩
  rintro i ⟨q, hq, refused⟩
  -- a refinement with a lower number is one of those that held
  by_contra lower
  rw [split, List.getElem?_append_left (Nat.not_le.mp lower)] at hq
  rw [held q (List.mem_of_getElem? hq)] at refused
  cases refused

end Visit

/-! ## Refinements -/

namespace Schema

variable {kind : KindName} {v : Value}

/-- While refinements hold, nothing is reported but what they report themselves. -/
theorem flatMap_zipIdx_onReject {ps : List Predicate} (h : ∀ p ∈ ps, (p v).result = true) :
    (ps.zipIdx.flatMap fun a => ((a.1 v).onReject (.refinementRejected kind a.2)).events) =
      ps.flatMap fun p => (p v).events := by
  calc ps.zipIdx.flatMap (fun a => ((a.1 v).onReject (.refinementRejected kind a.2)).events)
      = ps.zipIdx.flatMap (fun a => (a.1 v).events) := by
        refine List.flatMap_congr fun a ha => ?_
        rw [Traced.events_onReject, if_pos (h a.1 (List.fst_mem_of_mem_zipIdx ha)),
          List.append_nil]
    _ = ps.flatMap fun p => (p v).events := flatMap_zipIdx (fun p => (p v).events) ps 0

theorem events_refinementsHold {ps : List Predicate} (h : ∀ p ∈ ps, (p v).result = true) :
    (refinementsHold kind ps v).events = ps.flatMap fun p => (p v).events := by
  rw [refinementsHold, Traced.events_allM, flatMap_zipIdx_onReject h]
  intro a ha
  rw [Traced.result_onReject]
  exact h a.1 (List.fst_mem_of_mem_zipIdx ha)

/-- The first refinement that does not hold is reported by its number, and ends the search. -/
theorem events_refinementsHold_append {before after : List Predicate} {p : Predicate}
    (h : ∀ q ∈ before, (q v).result = true) (hp : (p v).result = false) :
    (refinementsHold kind (before ++ p :: after) v).events =
      (before.flatMap fun q => (q v).events) ++
        ((p v).events ++ [.refinementRejected kind before.length]) := by
  rw [refinementsHold, List.zipIdx_append, List.zipIdx_cons, Traced.events_allM_append,
    flatMap_zipIdx_onReject h, Traced.events_onReject, hp, Nat.zero_add]
  · rfl
  · intro a ha
    rw [Traced.result_onReject]
    exact h a.1 (List.fst_mem_of_mem_zipIdx ha)
  · rw [Traced.result_onReject, hp]

end Schema

end SchemaValidation
