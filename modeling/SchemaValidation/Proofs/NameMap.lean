import SchemaValidation.NameMap
import Mathlib.Data.List.Forall2

/-!
# Lookups and bindings

A map from names can be read as a list of bindings or by looking names up.  The list has an order
and the lookups have none, so what is said through lookups does not depend on the order of names.
`Bindings.mem_toList_iff` goes from one reading to the other, and `Bindings.ext_get?` says that the
lookups determine the map.
-/

namespace SchemaValidation

/-! ## Related lookups

Lookups are related if both find nothing, or both find something and that is related. -/

section

variable {α β γ δ : Type} {x : Option α} {y : Option β}

theorem optionRel_self_iff {R : α → α → Prop} : Option.Rel R x x ↔ ∀ a ∈ x, R a a := by
  cases x with
  | none => exact iff_of_true .none nofun
  | some a =>
    constructor
    · rintro ⟨related⟩ _ ⟨⟩
      exact related
    · intro related
      exact .some (related a rfl)

theorem optionRel_map_iff {R : γ → δ → Prop} {f : α → γ} {g : β → δ} :
    Option.Rel R (x.map f) (y.map g) ↔ Option.Rel (fun a b => R (f a) (g b)) x y := by
  constructor
  · intro h
    cases x with
    | none => cases y with
      | none => exact .none
      | some b => cases h
    | some a => cases y with
      | none => cases h
      | some b =>
        cases h with
        | some related => exact .some related
  · rintro (related | -)
    · exact .some related
    · exact .none

theorem isSome_eq_of_optionRel {R : α → β → Prop} (h : Option.Rel R x y) : x.isSome = y.isSome := by
  cases h <;> rfl

/-- Of what is related, only what is found needs to be known. -/
theorem optionRel_congr_of_mem {R S : α → β → Prop} (h : ∀ a ∈ x, ∀ b, R a b ↔ S a b) :
    Option.Rel R x y ↔ Option.Rel S x y := by
  constructor
  · rintro (related | -)
    · exact .some ((h _ rfl _).mp related)
    · exact .none
  · rintro (related | -)
    · exact .some ((h _ rfl _).mpr related)
    · exact .none

end

namespace Bindings

variable {α : Type} {floor : Option String}

/-- The names that follow are greater, so the rest of a map does not bind the first name again. -/
theorem get?_rest {name : String} (rest : Bindings α (some name)) : rest.get? name = none :=
  get?_eq_none_of_lt fun _ h => (follows_of_mem_names h).lt

/-- A name below the first is free. -/
theorem get?_cons_of_lt {key name : String} (follows : Follows floor name) (item : α)
    (rest : Bindings α (some name)) (lt : key < name) :
    (cons name follows item rest).get? key = none := by
  refine get?_eq_none_of_lt fun n h => ?_
  rcases List.mem_cons.mp h with rfl | h
  · exact lt
  · exact String.lt_trans lt (follows_of_mem_names h).lt

/-- A name is bound at most once, so a binding is what a lookup of its name finds. -/
theorem mem_toList_iff {m : Bindings α floor} {name : String} {item : α} :
    (name, item) ∈ m.toList ↔ m.get? name = some item := by
  induction m with
  | nil => simp
  | cons first follows old rest ih =>
    rw [toList_cons, List.mem_cons, get?_cons, ih]
    by_cases eq : name = first
    · subst eq
      simp [get?_rest, eq_comm]
    · simp [eq]

theorem mem_items_iff {m : Bindings α floor} {item : α} :
    item ∈ m.items ↔ ∃ name, m.get? name = some item := by
  simp only [items, List.mem_map, Prod.exists, exists_eq_right, mem_toList_iff]

/-- A map without bindings is one that finds nothing. -/
theorem isEmpty_iff {m : Bindings α floor} : m.isEmpty = true ↔ ∀ name, m.get? name = none := by
  cases m with
  | nil => simp [isEmpty]
  | cons first follows old rest =>
    constructor
    · intro empty
      cases empty
    · intro h
      have bound := h first
      rw [get?_cons, if_pos rfl] at bound
      cases bound

/-- Where a map binds a name, its first name is no greater. -/
theorem le_of_get?_cons {name key : String} {follows : Follows floor name} {first item : α}
    {rest : Bindings α (some name)} (h : (cons name follows first rest).get? key = some item) :
    name ≤ key := by
  refine String.not_lt.mp fun lt => ?_
  rw [get?_cons_of_lt follows first rest lt] at h
  cases h

/-- Two maps have the same first binding if they agree on their first names: the lesser of two
different first names would be found in one of the maps only. -/
theorem eq_of_get?_cons {name name' : String} {follows : Follows floor name}
    {follows' : Follows floor name'} {item item' : α} {rest : Bindings α (some name)}
    {rest' : Bindings α (some name')}
    (h : (cons name follows item rest).get? name = (cons name' follows' item' rest').get? name)
    (h' : (cons name follows item rest).get? name' = (cons name' follows' item' rest').get? name') :
    name = name' ∧ item = item' := by
  rw [get?_cons, if_pos rfl] at h
  rw [get?_cons name', if_pos rfl] at h'
  obtain rfl := String.le_antisymm (le_of_get?_cons h') (le_of_get?_cons h.symm)
  rw [get?_cons, if_pos rfl] at h
  exact ⟨rfl, Option.some.inj h⟩

/-- Maps that agree up to a name that one of them binds have the same bindings up to it. -/
theorem exists_toList_eq {m n : Bindings α floor} {key : String} {item : α}
    (h : ∀ name, name ≤ key → m.get? name = n.get? name) (bound : m.get? key = some item) :
    ∃ before after after', m.toList = before ++ (key, item) :: after ∧
      n.toList = before ++ (key, item) :: after' ∧ ∀ b ∈ before, b.1 ≤ key := by
  induction m with
  | nil => cases bound
  | cons name follows first rest ih =>
    have le := le_of_get?_cons bound
    have bound' := h key (String.le_refl key) ▸ bound
    cases n with
    | nil => cases bound'
    | cons name' follows' first' rest' =>
      have le' := le_of_get?_cons bound'
      obtain ⟨rfl, rfl⟩ := eq_of_get?_cons (h name le) (h name' le')
      by_cases eq : key = name
      · subst eq
        rw [get?_cons, if_pos rfl] at bound
        cases bound
        exact ⟨[], rest.toList, rest'.toList, rfl, rfl, nofun⟩
      · have rest_eq (other : String) (le : other ≤ key) : rest.get? other = rest'.get? other := by
          by_cases eq' : other = name
          · subst eq'
            rw [get?_rest, get?_rest]
          · simpa [eq'] using h other le
        rw [get?_cons, if_neg eq] at bound
        obtain ⟨before, after, after', split, split', below⟩ := ih rest_eq bound
        refine ⟨(name, first) :: before, after, after', ?_, ?_, ?_⟩
        · rw [toList_cons, split, List.cons_append]
        · rw [toList_cons, split', List.cons_append]
        · exact List.forall_mem_cons.mpr ⟨le, below⟩

/-- Maps that are related in what is found in them have the same first name. -/
theorem name_eq_of_rel {β : Type} {R : α → β → Prop} {name name' : String}
    {follows : Follows floor name} {follows' : Follows floor name'} {item : α} {item' : β}
    {rest : Bindings α (some name)} {rest' : Bindings β (some name')}
    (h : ∀ key, Option.Rel R ((cons name follows item rest).get? key)
      ((cons name' follows' item' rest').get? key)) : name = name' := by
  have first := h name
  have first' := h name'
  rw [get?_cons, if_pos rfl] at first
  rw [get?_cons name', if_pos rfl] at first'
  generalize found : (cons name' follows' item' rest').get? name = x at first
  generalize found' : (cons name follows item rest).get? name' = x' at first'
  cases first
  cases first'
  exact String.le_antisymm (le_of_get?_cons found') (le_of_get?_cons found)

/-- Maps are related binding by binding if they are related in what is found in them. -/
theorem forall₂_toList_iff {β : Type} {R : α → β → Prop} {m : Bindings α floor}
    {n : Bindings β floor} :
    List.Forall₂ (fun a b => a.1 = b.1 ∧ R a.2 b.2) m.toList n.toList ↔
      ∀ key, Option.Rel R (m.get? key) (n.get? key) := by
  induction m with
  | nil => cases n with
    | nil => exact iff_of_true .nil fun _ => .none
    | cons name follows item rest =>
      refine iff_of_false (fun h => by cases h) fun h => ?_
      have first := h name
      rw [get?_cons, if_pos rfl] at first
      cases first
  | cons name follows item rest ih => cases n with
    | nil =>
      refine iff_of_false (fun h => by cases h) fun h => ?_
      have first := h name
      rw [get?_cons, if_pos rfl] at first
      cases first
    | cons name' follows' item' rest' =>
      rw [toList_cons, toList_cons, List.forall₂_cons]
      constructor
      · rintro ⟨⟨eq, related⟩, others⟩ key
        subst eq
        rw [get?_cons, get?_cons]
        by_cases eq : key = name
        · rw [if_pos eq, if_pos eq]
          exact .some related
        · rw [if_neg eq, if_neg eq]
          exact ih.mp others key
      · intro h
        obtain rfl := name_eq_of_rel h
        have first := h name
        rw [get?_cons, get?_cons, if_pos rfl, if_pos rfl] at first
        refine ⟨⟨rfl, by cases first; assumption⟩, ih.mpr fun key => ?_⟩
        by_cases eq : key = name
        · rw [eq, get?_rest, get?_rest]
          exact .none
        · simpa [eq] using h key

/-- A map is determined by what is found in it. -/
theorem ext_get? {m n : Bindings α floor} (h : ∀ key, m.get? key = n.get? key) : m = n := by
  have related : List.Forall₂ (fun a b => a.1 = b.1 ∧ a.2 = b.2) m.toList n.toList := by
    refine forall₂_toList_iff.mpr fun key => ?_
    rw [h key]
    exact optionRel_self_iff.mpr fun _ _ => rfl
  refine toList_injective (List.forall₂_eq_eq_eq ▸ related.imp ?_)
  exact fun _ _ same => Prod.ext same.1 same.2

theorem get?_map {β : Type} (f : α → β) (m : Bindings α floor) (key : String) :
    (m.map f).get? key = (m.get? key).map f := by
  induction m with
  | nil => rfl
  | cons name follows item rest ih =>
    rw [map_cons, get?_cons, get?_cons, ih]
    split <;> rfl

theorem toList_map {β : Type} (f : α → β) (m : Bindings α floor) :
    (m.map f).toList = m.toList.map (Prod.map id f) := by
  induction m with
  | nil => rfl
  | cons name follows item rest ih =>
    rw [map_cons, toList_cons, ih]
    rfl

/-- The bindings that lie above a greater floor lie above this one. -/
def lower {last : String} (follows : Follows floor last) : Bindings α (some last) → Bindings α floor
  | .nil => .nil
  | .cons name follows' item rest => .cons name (follows.trans follows'.lt) item rest

@[simp] theorem get?_lower {last : String} (follows : Follows floor last)
    (m : Bindings α (some last)) (key : String) : (m.lower follows).get? key = m.get? key := by
  cases m <;> rfl

/-- Release a name. -/
def erase {floor : Option String} (m : Bindings α floor) (key : String) : Bindings α floor :=
  match m with
  | .nil => .nil
  | .cons name follows item rest =>
    if key = name then rest.lower follows else .cons name follows item (rest.erase key)

theorem get?_erase (m : Bindings α floor) (key key' : String) :
    (m.erase key).get? key' = if key' = key then none else m.get? key' := by
  induction m with
  | nil => simp [erase]
  | cons name follows item rest ih =>
    rw [erase]
    by_cases eq : key = name
    · subst eq
      rw [if_pos rfl, get?_lower, get?_cons]
      by_cases eq' : key' = key
      · subst eq'
        rw [if_pos rfl, get?_rest]
      · rw [if_neg eq', if_neg eq']
    · rw [if_neg eq, get?_cons, get?_cons, ih]
      by_cases eq' : key' = key
      · subst eq'
        rw [if_pos rfl, if_pos rfl, if_neg eq]
      · rw [if_neg eq', if_neg eq']

end Bindings

namespace NameMap

variable {α : Type}

/-- A binding can be taken out of a map and put back. -/
theorem insertNew_erase {m : NameMap α} {key : String} {item : α} (h : m.get? key = some item) :
    NameMap.insertNew (m.erase key) key item = m := by
  refine Bindings.ext_get? fun key' => ?_
  rw [get?_insertNew, Bindings.get?_erase]
  by_cases eq : key' = key
  · rw [if_pos eq, if_pos eq, Option.none_or, eq, h]
  · rw [if_neg eq, if_neg eq, Option.or_none]

/-- Later bindings count for more than earlier ones. -/
theorem get?_ofList_append (bindings later : List (String × α)) (key : String) :
    (ofList (bindings ++ later)).get? key =
      ((ofList later).get? key).or ((ofList bindings).get? key) := by
  induction bindings with
  | nil => rw [List.nil_append, ofList_nil, get?_empty, Option.or_none]
  | cons b rest ih => rw [List.cons_append, get?_ofList_cons, get?_ofList_cons, ih, Option.or_assoc]

theorem get?_ofList_toList {floor : Option String} (m : Bindings α floor) (key : String) :
    (ofList m.toList).get? key = m.get? key := by
  induction m with
  | nil => rfl
  | cons name follows item rest ih =>
    rw [Bindings.toList_cons, get?_ofList_cons, Bindings.get?_cons, ih]
    by_cases eq : key = name
    · subst eq
      rw [Bindings.get?_rest, Option.none_or, if_pos rfl]
    · rw [if_neg eq, if_neg eq, Option.or_none]

/-- Two maps together.  Where both bind a name, the second counts. -/
def union (m n : NameMap α) : NameMap α := ofList (m.toList ++ n.toList)

/-- No name is bound by both maps. -/
def Disjoint (m n : NameMap α) : Prop := ∀ key, m.get? key = none ∨ n.get? key = none

variable {m n : NameMap α} {key : String} {item : α}

theorem get?_union (m n : NameMap α) (key : String) :
    (m.union n).get? key = (n.get? key).or (m.get? key) := by
  rw [union, get?_ofList_append, get?_ofList_toList, get?_ofList_toList]

theorem get?_union_eq_none_iff :
    (m.union n).get? key = none ↔ m.get? key = none ∧ n.get? key = none := by
  rw [get?_union, Option.or_eq_none_iff, and_comm]

theorem Disjoint.get?_union_eq_some_iff (disjoint : m.Disjoint n) :
    (m.union n).get? key = some item ↔ m.get? key = some item ∨ n.get? key = some item := by
  rw [get?_union]
  rcases disjoint key with free | free <;> simp [free]

end NameMap

end SchemaValidation
