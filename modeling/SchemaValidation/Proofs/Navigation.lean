import SchemaValidation.Proofs.Visit

/-!
# Navigation of accepted values

What a schema has accepted can be read along the schema: from an object to a declared property, from
an array to an item, and at a union on to an alternative that accepts the value.  Each step leads
from an accepted visit to an accepted visit (`Visit.Goes.accepted`), and so does every walk.  Where
it ends at a string, a number or a boolean, that is the type of what is found.

An optional object that is absent was not looked into.  Its properties read as absent, whether or
not their schemas accept that, and so a walk may not go on below an absent value.
-/

namespace SchemaValidation

/-- A turn to a part of the value, and not to the same value again. -/
def Turn.descends : Turn → Bool
  | .property _ | .item _ => true
  | .alternative _ => false

/-- The type of value that a kind without children is for. -/
def Kind.scalarType? {σ : Type} : Kind σ → Option TypeName
  | .string => some .string
  | .number => some .number
  | .boolean => some .boolean
  | _ => none

/-- A value that is present has passed the type check where it is accepted. -/
theorem Schema.admits_of_accepts {s : Schema} {v : Value} (accepted : s.accepts v = true)
    (present : v ≠ .absent) :
    s.kind.Admits (fun s v => s.accepts v = true) s.required v :=
  ((accepts_of_not_settles (not_settles_of_ne_absent present)).mp accepted).1

namespace Visit

/-- One step in the schema and the value at once. -/
inductive Goes : Visit → Turn → Visit → Prop
  | property {properties : NameMap Schema} {required : Bool} {refinements : List Predicate}
      {v : Value} {name : String} {child : Schema} (declared : properties.get? name = some child) :
      Goes ⟨⟨.object properties, required, refinements⟩, v⟩ (.property name) ⟨child, v.get name⟩
  | item {element : Schema} {required : Bool} {refinements : List Predicate} {items : List Value}
      {index : Nat} (bound : index < items.length) :
      Goes ⟨⟨.array element, required, refinements⟩, .array items⟩ (.item index)
        ⟨element, (Value.array items).item index⟩
  /-- A union is left for an alternative that accepts the value. -/
  | alternative {alternatives : List Schema} {required : Bool} {refinements : List Predicate}
      {v : Value} {index : Nat} {alternative : Schema} (present : v ≠ .absent)
      (chosen : alternatives[index]? = some alternative) (accepted : alternative.accepts v = true) :
      Goes ⟨⟨.union alternatives, required, refinements⟩, v⟩ (.alternative index) ⟨alternative, v⟩

/-- Any number of steps, each listed with the visit that it leaves behind. -/
inductive Walk : Visit → List (Visit × Turn) → Visit → Prop
  | stay (x : Visit) : Walk x [] x
  | go {x y z : Visit} {turn : Turn} {steps : List (Visit × Turn)} (step : x.Goes turn y)
      (rest : Walk y steps z) : Walk x ((x, turn) :: steps) z

variable {x y : Visit}

/-- A step from a value that is present and accepted leads to what is accepted. -/
theorem Goes.accepted {turn : Turn} (step : x.Goes turn y) (accepted : x.accepted = true)
    (present : turn.descends = true → x.value ≠ .absent) : y.accepted = true := by
  cases step with
  | property declared =>
    rcases Schema.admits_of_accepts accepted (present rfl) with ⟨-, parts⟩ | ⟨-, none⟩
    · exact parts _ _ declared
    · rw [none] at declared
      cases declared
  | item bound =>
    rcases Schema.admits_of_accepts accepted (present rfl) with ⟨items, eq, parts⟩ | ⟨-, absent⟩
    · cases eq
      rw [Value.item_array, List.getD_eq_getElem?_getD, List.getElem?_eq_getElem bound]
      exact parts _ (List.getElem_mem bound)
    · cases absent
  | alternative _ _ accepts => exact accepts

/-- So does a walk, as long as what it descends from is present. -/
theorem Walk.accepted {steps : List (Visit × Turn)} (walk : x.Walk steps y)
    (accepted : x.accepted = true)
    (present : ∀ step ∈ steps, step.2.descends = true → step.1.value ≠ .absent) :
    y.accepted = true := by
  induction walk with
  | stay => exact accepted
  | go step rest ih =>
    apply ih
    · exact step.accepted accepted (present _ List.mem_cons_self)
    · intro later mem
      exact present later (List.mem_cons_of_mem _ mem)

/-- Of the kinds without children each accepts its type, and otherwise only absence. -/
theorem typeName_of_accepted {type : TypeName} (scalar : x.node.kind.scalarType? = some type)
    (accepted : x.accepted = true) :
    x.value.typeName = type ∨ (x.value = .absent ∧ x.node.required = false) := by
  obtain ⟨⟨kind, required, refinements⟩, v⟩ := x
  by_cases settles : Schema.Settles ⟨kind, required, refinements⟩ v
  · exact .inr ⟨settles.1, (Schema.accepts_of_settles settles).mp accepted⟩
  · have admits := ((Schema.accepts_of_not_settles settles).mp accepted).1
    apply Or.inl
    cases kind with
    | string | number | boolean =>
      cases scalar
      exact admits
    | unset | object | array | union => cases scalar

/-- From a union that has accepted a value there is a step on. -/
theorem exists_goes_of_union {alternatives : List Schema}
    (union : x.node.kind = .union alternatives) (accepted : x.accepted = true)
    (present : x.value ≠ .absent) :
    ∃ index alternative, alternatives[index]? = some alternative ∧
      x.Goes (.alternative index) ⟨alternative, x.value⟩ := by
  obtain ⟨⟨kind, required, refinements⟩, v⟩ := x
  cases union
  rcases (Schema.accepts_union_iff.mp accepted).1 with ⟨-, absent⟩ | ⟨alternative, mem, accepts⟩
  · exact absurd absent present
  · obtain ⟨index, chosen⟩ := List.mem_iff_getElem?.mp mem
    exact ⟨index, alternative, chosen, .alternative present chosen accepts⟩

end Visit

/-- A walk through an accepted value that descends from nothing absent ends where the schema accepts
the value.  The value is of the type of the node there, if that is a string, a number or a boolean,
or else it is absent and may be.  At a union the walk can go on. -/
theorem Schema.accepts_of_walk {s t : Schema} {v w : Value} {steps : List (Visit × Turn)}
    (accepted : (s.validate v).result = true) (walk : (Visit.mk s v).Walk steps ⟨t, w⟩)
    (present : ∀ step ∈ steps, step.2.descends = true → step.1.value ≠ .absent) :
    (t.validate w).result = true ∧
      (∀ type, t.kind.scalarType? = some type →
        w.typeName = type ∨ (w = .absent ∧ t.required = false)) ∧
      ∀ alternatives, t.kind = .union alternatives → w ≠ .absent →
        ∃ index alternative, alternatives[index]? = some alternative ∧
          (Visit.mk t w).Goes (.alternative index) ⟨alternative, w⟩ := by
  have reached : (Visit.mk t w).accepted = true := walk.accepted accepted present
  refine ⟨reached, ?_, ?_⟩
  · intro type scalar
    exact Visit.typeName_of_accepted scalar reached
  · intro alternatives union there
    exact Visit.exists_goes_of_union union reached there

/-- The tag is read as a string, because it is no number. -/
theorem Schema.accepts_of_walk_tags :
    ((blank.object [("tags", blank.arrayOf (blank.oneOf [blank.number, blank.string]))]).validate
        (.ofProperties [("tags", .array [.string "a"])])).result = true ∧
      (∃ steps, (Visit.mk
          (blank.object [("tags", blank.arrayOf (blank.oneOf [blank.number, blank.string]))])
          (.ofProperties [("tags", .array [.string "a"])])).Walk steps
            ⟨blank.string, .string "a"⟩ ∧
        ∀ step ∈ steps, step.2.descends = true → step.1.value ≠ .absent) ∧
      (blank.string.validate (.string "a")).result = true ∧
      ((Value.string "a").typeName = .string ∨
        (Value.string "a" = .absent ∧ blank.string.required = false)) := by
  have accepted :
      ((blank.object [("tags", blank.arrayOf (blank.oneOf [blank.number, blank.string]))]).validate
        (.ofProperties [("tags", .array [.string "a"])])).result = true := by decide
  have enter : (Visit.mk
      (blank.object [("tags", blank.arrayOf (blank.oneOf [blank.number, blank.string]))])
      (.ofProperties [("tags", .array [.string "a"])])).Goes (.property "tags")
        ⟨blank.arrayOf (blank.oneOf [blank.number, blank.string]), .array [.string "a"]⟩ :=
    .property rfl
  have take : (Visit.mk (blank.arrayOf (blank.oneOf [blank.number, blank.string]))
      (.array [.string "a"])).Goes (.item 0)
        ⟨blank.oneOf [blank.number, blank.string], .string "a"⟩ := .item Nat.zero_lt_one
  have pick : (Visit.mk (blank.oneOf [blank.number, blank.string]) (.string "a")).Goes
      (.alternative 1) ⟨blank.string, .string "a"⟩ := .alternative nofun rfl (by decide)
  have walked : ∃ steps, (Visit.mk
      (blank.object [("tags", blank.arrayOf (blank.oneOf [blank.number, blank.string]))])
      (.ofProperties [("tags", .array [.string "a"])])).Walk steps ⟨blank.string, .string "a"⟩ ∧
      ∀ step ∈ steps, step.2.descends = true → step.1.value ≠ .absent := by
    refine ⟨_, .go enter (.go take (.go pick (.stay _))), ?_⟩
    simp [Value.ofProperties]
  obtain ⟨steps, walk, present⟩ := walked
  have read := accepts_of_walk accepted walk present
  exact ⟨accepted, ⟨steps, walk, present⟩, read.1, read.2.1 _ rfl⟩

/-- Below an absent object nothing is promised. -/
example :
    ((Schema.blank.optional.object [("id", .string .blank)]).validate .absent).result = true ∧
      ((Schema.string .blank).validate (Value.absent.get "id")).result = false := by
  decide

end SchemaValidation
