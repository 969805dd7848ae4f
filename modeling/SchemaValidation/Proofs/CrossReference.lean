import SchemaValidation.Conformance.Cases
import SchemaValidation.Proofs.Acceptance
import SchemaValidation.Proofs.Pairs
import Mathlib.Data.Set.List

/-!
# Cross-references

The collection of people and locations is accepted exactly if it is an object of two arrays in which
the hometowns and the names fit (`Conformance.CrossReferenced`).  Both refinements read fields that
they do not check: a missing list counts as an empty one, a missing hometown is the name of a
location without one, and two locations without a name have the same.  None of this comes up, because
the type check has been passed before.

What is asked of the two arrays does not depend on their order, and so neither does the verdict.
-/

namespace SchemaValidation

/-! ## Accepted records -/

namespace Value

variable {v : Value} {name : String}

/-- Only objects have properties that are present. -/
theorem get_eq_array_iff {items : List Value} :
    v.get name = .array items ↔
      ∃ properties, v = .object properties ∧ properties.get? name = some (.array items) := by
  constructor
  · intro found
    cases v with
    | object properties =>
      refine ⟨properties, rfl, ?_⟩
      cases bound : properties.get? name with
      | none => simp [bound] at found
      | some w =>
        rw [get_object, bound] at found
        exact congrArg some found
    | _ => cases found
  · rintro ⟨properties, rfl, bound⟩
    rw [get_object, bound, Option.getD_some]

theorem beq_string_iff {s : String} : (v == .string s) = true ↔ v = .string s := by
  cases v with
  | string t => rw [string_beq, beq_iff_eq, string.injEq]
  | _ => exact iff_of_false (fun equal => by cases equal) fun eq => by cases eq

end Value

namespace Schema

variable {element : Schema} {properties : NameMap Schema} {refinements : List Predicate}
  {name : String} {v : Value}

theorem accepts_string_iff : blank.string.accepts v = true ↔ ∃ s, v = .string s := by
  constructor
  · intro accepted
    cases v with
    | string s => exact ⟨s, rfl⟩
    | _ => cases accepted
  · rintro ⟨s, rfl⟩
    rfl

theorem accepts_arrayOf_iff :
    (blank.arrayOf element).accepts v = true ↔
      ∃ items, v = .array items ∧ ∀ item ∈ items, element.accepts item = true := by
  rw [accepts_of_not_settles (not_settles_of_handles rfl)]
  simp [arrayOf, declare, blank, Kind.Admits]

/-- Where a property is declared, an object schema that requires its value takes only what has
properties to look up. -/
theorem accepts_object_iff {child : Schema} (declared : properties.get? name = some child) :
    accepts ⟨.object properties, true, refinements⟩ v = true ↔
      (v.typeName = .object ∨ v.typeName = .array) ∧
      (∀ name child, properties.get? name = some child → child.accepts (v.get name) = true) ∧
      ∀ p ∈ refinements, (p v).result = true := by
  by_cases absent : v = .absent
  · subst absent
    rw [accepts_of_settles ⟨rfl, rfl⟩]
    exact iff_of_false nofun fun h => by rcases h.1 with type | type <;> cases type
  · rw [accepts_of_not_settles (not_settles_of_ne_absent absent), ← and_assoc]
    refine and_congr_left' (or_iff_left ?_)
    rintro ⟨-, none⟩
    rw [none] at declared
    cases declared

/-- A property that is declared as a required string is found to be one. -/
theorem exists_string_of_accepts (declared : properties.get? name = some blank.string)
    (accepted : accepts ⟨.object properties, true, refinements⟩ v = true) :
    ∃ s, v.get name = .string s :=
  accepts_string_iff.mp (((accepts_object_iff declared).mp accepted).2.1 name _ declared)

end Schema

namespace Conformance

open Schema

variable {v : Value} {person location : Value} {people locations : List Value}

theorem exists_hometown (accepted : personSchema.accepts person = true) :
    ∃ town, person.get "hometown" = .string town :=
  exists_string_of_accepts (by simp [NameMap.get?_ofList_cons]) accepted

theorem exists_location_name (accepted : locationSchema.accepts location = true) :
    ∃ name, location.get "name" = .string name :=
  exists_string_of_accepts (by simp [NameMap.get?_ofList_cons]) accepted

/-! ## The refinements -/

/-- What is new when its turn comes differs from all that was there before. -/
theorem allNew_iff {seen names : List (Option String)} :
    allNew seen names = true ↔ (∀ name ∈ names, name ∉ seen) ∧ names.Nodup := by
  induction names generalizing seen with
  | nil => simp [allNew]
  | cons name rest ih =>
    rw [allNew, Bool.and_eq_true, Bool.not_eq_true', List.contains_eq_mem, decide_eq_false_iff_not,
      ih, List.forall_mem_cons, List.nodup_cons]
    constructor
    · rintro ⟨new, others, nodup⟩
      refine ⟨⟨new, ?_⟩, ?_, nodup⟩
      · intro other mem
        exact List.not_mem_of_not_mem_cons (others other mem)
      · intro again
        exact others name again List.mem_cons_self
    · rintro ⟨⟨new, others⟩, once, nodup⟩
      refine ⟨new, fun other mem => List.not_mem_cons_of_ne_of_not_mem ?_ (others other mem), nodup⟩
      rintro rfl
      exact once mem

theorem records_eq {name : String} {items : List Value} (found : v.get name = .array items) :
    records v name = items := by
  rw [records, found]
  rfl

/-- Where all people have hometowns, equality with one of these is that of strings, and a location
without a name is the hometown of nobody. -/
theorem hometownsResolve_iff (foundPeople : v.get "people" = .array people)
    (foundLocations : v.get "locations" = .array locations)
    (hometowns : ∀ person ∈ people, ∃ town, person.get "hometown" = .string town) :
    hometownsResolve v = true ↔ ∀ person ∈ people, ∃ location ∈ locations, ∃ town,
      location.get "name" = .string town ∧ person.get "hometown" = .string town := by
  rw [hometownsResolve, records_eq foundPeople, records_eq foundLocations, List.all_eq_true]
  apply forall₂_congr
  intro person mem
  obtain ⟨town, home⟩ := hometowns person mem
  rw [List.any_eq_true, home]
  simp only [Value.beq_string_iff, Value.string.injEq, exists_eq_right']

-- somebody without a hometown would live at a location without a name
example : hometownsResolve (everything [.null] [.null]) = true := by decide +kernel

/-- Where all locations have names, these are what has to be new each time. -/
theorem locationNamesUnique_iff (found : v.get "locations" = .array locations)
    {names : List String} (named : locations.map (·.get "name") = names.map .string) :
    locationNamesUnique v = true ↔ names.Nodup := by
  have seen : locations.map (fun location => (location.get "name").string?) = names.map some :=
    calc locations.map (fun location => (location.get "name").string?)
        = (locations.map (·.get "name")).map Value.string? := by rw [List.map_map]; rfl
      _ = (names.map Value.string).map Value.string? := by rw [named]
      _ = names.map some := by rw [List.map_map]; rfl
  rw [locationNamesUnique, records_eq found, seen, allNew_iff,
    List.nodup_map_iff (Option.some_injective _)]
  exact and_iff_right fun _ _ => List.not_mem_nil

/-- Where all locations have names, these can be listed. -/
theorem exists_names (named : ∀ location ∈ locations, ∃ name, location.get "name" = .string name) :
    ∃ names : List String, locations.map (·.get "name") = names.map .string := by
  have strings : locations.map (·.get "name") ∈ Set.range (List.map Value.string) := by
    rw [Set.range_list_map]
    rintro _ listed
    obtain ⟨location, mem, rfl⟩ := List.mem_map.mp listed
    obtain ⟨name, eq⟩ := named location mem
    exact ⟨name, eq.symm⟩
  obtain ⟨names, eq⟩ := strings
  exact ⟨names, eq.symm⟩

/-! ## The collection -/

/-- People and locations as they should be: each of them accepted, every hometown the name of a
location, and no name given twice. -/
structure CrossReferenced (people locations : List Value) : Prop where
  people_accepted : ∀ person ∈ people, (personSchema.validate person).result = true
  locations_accepted : ∀ location ∈ locations, (locationSchema.validate location).result = true
  at_home : ∀ person ∈ people, ∃ location ∈ locations, ∃ town,
    location.get "name" = .string town ∧ person.get "hometown" = .string town
  names_differ : ∃ names : List String,
    locations.map (·.get "name") = names.map .string ∧ names.Nodup

/-- Nothing is said about their order. -/
theorem CrossReferenced.of_perm {people' locations' : List Value}
    (h : CrossReferenced people locations) (perm : people.Perm people')
    (perm' : locations.Perm locations') : CrossReferenced people' locations' where
  people_accepted person mem := h.people_accepted person (perm.mem_iff.mpr mem)
  locations_accepted location mem := h.locations_accepted location (perm'.mem_iff.mpr mem)
  at_home person mem := by
    obtain ⟨location, mem', home⟩ := h.at_home person (perm.mem_iff.mpr mem)
    exact ⟨location, perm'.mem_iff.mp mem', home⟩
  names_differ := by
    obtain ⟨names, eq, nodup⟩ := h.names_differ
    obtain ⟨names', eq'⟩ := exists_names fun location mem =>
      exists_location_name (h.locations_accepted location (perm'.mem_iff.mpr mem))
    have renamed : (names.map Value.string).Perm (names'.map Value.string) := by
      rw [← eq, ← eq']
      exact perm'.map _
    have injective : Function.Injective Value.string := fun _ _ => Value.string.inj
    refine ⟨names', eq', ?_⟩
    rw [← List.nodup_map_iff injective] at nodup ⊢
    exact renamed.nodup_iff.mp nodup

/-- Two properties are declared of the collection. -/
theorem forall_declared_iff {P : String → Schema → Prop} :
    (∀ name child, (NameMap.ofList [("people", blank.arrayOf personSchema),
        ("locations", blank.arrayOf locationSchema)]).get? name = some child → P name child) ↔
      P "people" (blank.arrayOf personSchema) ∧ P "locations" (blank.arrayOf locationSchema) := by
  constructor
  · intro all
    constructor
    · exact all _ _ (by simp [NameMap.get?_ofList_cons])
    · exact all _ _ (by simp [NameMap.get?_ofList_cons])
  · rintro ⟨people, locations⟩ name child declared
    have mem := (NameMap.get?_ofList_eq_some_iff.mp declared).mem
    simp only [List.mem_cons, Prod.mk.injEq, List.not_mem_nil, or_false] at mem
    rcases mem with ⟨rfl, rfl⟩ | ⟨rfl, rfl⟩
    · exact people
    · exact locations

theorem accepts_everything_iff :
    everythingSchema.accepts v = true ↔ ∃ people locations,
      v.get "people" = .array people ∧ v.get "locations" = .array locations ∧
      CrossReferenced people locations := by
  show Schema.accepts ⟨.object (NameMap.ofList _), true,
    [.test hometownsResolve, .test locationNamesUnique]⟩ v = true ↔ _
  have declared : (NameMap.ofList [("people", blank.arrayOf personSchema),
      ("locations", blank.arrayOf locationSchema)]).get? "people" =
        some (blank.arrayOf personSchema) := by simp [NameMap.get?_ofList_cons]
  rw [accepts_object_iff declared, forall_declared_iff, accepts_arrayOf_iff, accepts_arrayOf_iff]
  constructor
  · rintro ⟨-, ⟨⟨people, foundPeople, persons⟩, ⟨locations, foundLocations, places⟩⟩, refined⟩
    obtain ⟨resolve, unique⟩ : hometownsResolve v = true ∧ locationNamesUnique v = true := by
      simpa [Predicate.test] using refined
    obtain ⟨names, named⟩ := exists_names fun location mem =>
      exists_location_name (places location mem)
    refine ⟨people, locations, foundPeople, foundLocations, persons, places, ?_, names, named, ?_⟩
    · rwa [← hometownsResolve_iff foundPeople foundLocations]
      exact fun person mem => exists_hometown (persons person mem)
    · rwa [← locationNamesUnique_iff foundLocations named]
  · rintro ⟨people, locations, foundPeople, foundLocations, h⟩
    obtain ⟨names, named, nodup⟩ := h.names_differ
    obtain ⟨properties, rfl, -⟩ := Value.get_eq_array_iff.mp foundPeople
    refine ⟨.inl rfl, ⟨⟨people, foundPeople, h.people_accepted⟩,
      ⟨locations, foundLocations, h.locations_accepted⟩⟩, ?_⟩
    have resolve : hometownsResolve (.object properties) = true := by
      rw [hometownsResolve_iff foundPeople foundLocations]
      · exact h.at_home
      · exact fun person mem => exists_hometown (h.people_accepted person mem)
    have unique : locationNamesUnique (.object properties) = true :=
      (locationNamesUnique_iff foundLocations named).mpr nodup
    simp [Predicate.test, resolve, unique]

/-- The second value is the first, or an array of the same elements in another order. -/
inductive Reordered : Value → Value → Prop
  | same (v : Value) : Reordered v v
  | array {items items' : List Value} (perm : items.Perm items') :
      Reordered (.array items) (.array items')

theorem Reordered.symm {w : Value} (h : Reordered v w) : Reordered w v := by
  cases h with
  | same => exact .same v
  | array perm => exact .array perm.symm

theorem Reordered.exists_perm {w : Value} {items : List Value} (h : Reordered v w)
    (array : v = .array items) : ∃ items', w = .array items' ∧ items.Perm items' := by
  cases h with
  | same => exact ⟨items, array, .refl items⟩
  | array perm =>
    cases array
    exact ⟨_, rfl, perm⟩

theorem accepts_everything_of_reordered {w : Value}
    (people : Reordered (v.get "people") (w.get "people"))
    (locations : Reordered (v.get "locations") (w.get "locations"))
    (accepted : everythingSchema.accepts v = true) : everythingSchema.accepts w = true := by
  obtain ⟨_, _, foundPeople, foundLocations, h⟩ := accepts_everything_iff.mp accepted
  obtain ⟨people', foundPeople', perm⟩ := people.exists_perm foundPeople
  obtain ⟨locations', foundLocations', perm'⟩ := locations.exists_perm foundLocations
  exact accepts_everything_iff.mpr
    ⟨people', locations', foundPeople', foundLocations', h.of_perm perm perm'⟩

/-- A value is accepted exactly if it is an object of an array of people and an array of locations,
all of them accepted, where every hometown is the name of a location and the names, in order, are
distinct strings.  The order of the people and that of the locations have no say. -/
theorem everything_cross_referenced :
    (∀ v : Value, (everythingSchema.validate v).result = true ↔
      ∃ (properties : NameMap Value) (people locations : List Value), v = .object properties ∧
        properties.get? "people" = some (.array people) ∧
        properties.get? "locations" = some (.array locations) ∧
        (∀ person ∈ people, (personSchema.validate person).result = true) ∧
        (∀ location ∈ locations, (locationSchema.validate location).result = true) ∧
        (∀ person ∈ people, ∃ location ∈ locations, ∃ town,
          location.get "name" = .string town ∧ person.get "hometown" = .string town) ∧
        ∃ names : List String,
          locations.map (·.get "name") = names.map .string ∧ names.Nodup) ∧
    ∀ v w : Value, Reordered (v.get "people") (w.get "people") →
      Reordered (v.get "locations") (w.get "locations") →
      (everythingSchema.validate v).result = (everythingSchema.validate w).result := by
  constructor
  · intro v
    refine accepts_everything_iff.trans ⟨?_, ?_⟩
    · rintro ⟨people, locations, foundPeople, foundLocations, h⟩
      obtain ⟨properties, rfl, bound⟩ := Value.get_eq_array_iff.mp foundPeople
      obtain ⟨_, eq, bound'⟩ := Value.get_eq_array_iff.mp foundLocations
      cases eq
      exact ⟨properties, people, locations, rfl, bound, bound', h.people_accepted,
        h.locations_accepted, h.at_home, h.names_differ⟩
    · rintro ⟨properties, people, locations, eq, bound, bound', persons, places, home, names⟩
      have foundPeople := Value.get_eq_array_iff.mpr ⟨properties, eq, bound⟩
      have foundLocations := Value.get_eq_array_iff.mpr ⟨properties, eq, bound'⟩
      exact ⟨people, locations, foundPeople, foundLocations, persons, places, home, names⟩
  · intro v w people locations
    rw [Bool.eq_iff_iff]
    constructor
    · exact accepts_everything_of_reordered people locations
    · exact accepts_everything_of_reordered people.symm locations.symm

theorem get_everything (people locations : List Value) :
    (everything people locations).get "people" = .array people ∧
      (everything people locations).get "locations" = .array locations := by
  constructor
  · exact Value.get_ofProperties ⟨[], [("locations", .array locations)], rfl, by simp⟩
  · exact Value.get_ofProperties ⟨[("people", .array people)], [], rfl, by simp⟩

/-- Two locations, of which a person lives at the one, may be listed in either order. -/
theorem everything_cross_referenced_swapped :
    let vienna := Value.ofProperties [("name", .string "Vienna"), ("coordinates", .array [])]
    let v := everything [john] [budapest, vienna]
    let w := everything [john] [vienna, budapest]
    Reordered (v.get "people") (w.get "people") ∧
      Reordered (v.get "locations") (w.get "locations") ∧
      (everythingSchema.validate w).result = true := by
  intro vienna v w
  have people : Reordered (v.get "people") (w.get "people") := by
    rw [(get_everything _ _).1, (get_everything _ _).1]
    exact .same _
  have locations : Reordered (v.get "locations") (w.get "locations") := by
    rw [(get_everything _ _).2, (get_everything _ _).2]
    exact .array (.swap vienna budapest [])
  have accepted : (everythingSchema.validate v).result = true := by decide +kernel
  exact ⟨people, locations, (everything_cross_referenced.2 v w people locations) ▸ accepted⟩

end Conformance

end SchemaValidation
