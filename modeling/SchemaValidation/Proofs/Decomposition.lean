import SchemaValidation.Proofs.Wrapping

/-!
# Decomposition of composite kinds

An object schema over two sets of properties asks for what the two ask for, one after the other, and
an array of two halves is judged by judging the halves.

Properties are visited in order of name, which mixes those of the two sets, and so only the verdict
decomposes: whichever of them rejects first is the one that reports.  The items of an array are
visited in their own order.  Its evaluation decomposes with all events
(`Schema.validate_array_append`), though not under permutations, which keep the verdict alone.
-/

namespace SchemaValidation

namespace Kind

variable {σ : Type} {accepts : σ → Value → Prop} {required : Bool} {v : Value}

/-- What admits a value to two sets of properties together admits it to either, null included: no
property is declared together if none is declared by either. -/
theorem admits_union_iff {p q : NameMap σ} (disjoint : p.Disjoint q) :
    (object (p.union q)).Admits accepts required v ↔
      (object p).Admits accepts required v ∧ (object q).Admits accepts required v := by
  constructor
  · rintro (⟨type, parts⟩ | ⟨null, none⟩)
    · constructor
      · refine .inl ⟨type, fun name child declared => parts name child ?_⟩
        exact disjoint.get?_union_eq_some_iff.mpr (.inl declared)
      · refine .inl ⟨type, fun name child declared => parts name child ?_⟩
        exact disjoint.get?_union_eq_some_iff.mpr (.inr declared)
    · constructor
      · exact .inr ⟨null, fun name => (NameMap.get?_union_eq_none_iff.mp (none name)).1⟩
      · exact .inr ⟨null, fun name => (NameMap.get?_union_eq_none_iff.mp (none name)).2⟩
  · rintro ⟨⟨type, parts⟩ | ⟨rfl, none⟩, ⟨type', parts'⟩ | ⟨null, none'⟩⟩
    · refine .inl ⟨type, fun name child declared => ?_⟩
      rcases disjoint.get?_union_eq_some_iff.mp declared with declared | declared
      · exact parts name child declared
      · exact parts' name child declared
    · -- a value is not null for one set and an object or an array for the other
      subst null
      rcases type with type | type <;> cases type
    · rcases type' with type | type <;> cases type
    · refine .inr ⟨rfl, fun name => ?_⟩
      exact NameMap.get?_union_eq_none_iff.mpr ⟨none name, none' name⟩

end Kind

/-- Two verdicts are against if one of them is, and the first that is gets reported. -/
theorem Traced.onReject_both (e : Event) (x y : Traced Bool) :
    onReject e (both x y) = both (onReject e x) (onReject e y) := by
  apply Traced.ext
  · simp
  · cases h : x.result <;> simp [h]

namespace Schema

/-- Properties can be declared in one object schema or in two. -/
theorem accepts_object_union {p q : NameMap Schema} (disjoint : p.Disjoint q) (v : Value) :
    accepts ⟨.object (p.union q), true, []⟩ v =
      (accepts ⟨.object p, true, []⟩ v && accepts ⟨.object q, true, []⟩ v) := by
  rw [Bool.eq_iff_iff, Bool.and_eq_true]
  by_cases absent : v = .absent
  · have settles (properties : NameMap Schema) : Settles ⟨.object properties, true, []⟩ v :=
      ⟨absent, rfl⟩
    rw [accepts_of_settles (settles _), accepts_of_settles (settles p),
      accepts_of_settles (settles q)]
    simp
  · have unsettled (properties : NameMap Schema) : ¬Settles ⟨.object properties, true, []⟩ v :=
      not_settles_of_ne_absent absent
    rw [accepts_of_not_settles (unsettled _), accepts_of_not_settles (unsettled p),
      accepts_of_not_settles (unsettled q), Kind.admits_union_iff disjoint]
    simp

variable {element : Schema} {required : Bool}

theorem validate_array (items : List Value) :
    validate ⟨.array element, required, []⟩ (.array items) =
      (items.allM element.validate).onReject (.typeRejected .array .array) := by
  rw [validate_of_plain rfl (not_settles_of_handles rfl), fits_array]
  rfl

/-- The second half of an array is judged if the first half is accepted, and as an array itself. -/
theorem validate_array_append (xs ys : List Value) :
    validate ⟨.array element, required, []⟩ (.array (xs ++ ys)) =
      (validate ⟨.array element, required, []⟩ (.array xs)).both
        (validate ⟨.array element, required, []⟩ (.array ys)) := by
  rw [validate_array, validate_array, validate_array, Traced.allM_append, Traced.onReject_both]

/-- An array is accepted for its items, wherever they stand. -/
theorem accepts_array_of_perm {xs ys : List Value} (h : xs.Perm ys) :
    accepts ⟨.array element, required, []⟩ (.array xs) =
      accepts ⟨.array element, required, []⟩ (.array ys) := by
  rw [accepts, accepts, validate_array, validate_array, Traced.result_onReject,
    Traced.result_onReject, Traced.result_allM, Traced.result_allM]
  exact h.all_eq

/-- An object schema over two disjoint sets of properties accepts a value if the one over either
set does.  An array is accepted if its halves are, with the events of the second half after those of
the first, if that is accepted, and the order of the items has no say in the verdict. -/
theorem composites_decompose :
    (∀ p q : NameMap Schema, p.Disjoint q → ∀ v,
      ((blank.declare (.object (p.union q))).validate v).result =
        (((blank.declare (.object p)).validate v).result &&
          ((blank.declare (.object q)).validate v).result)) ∧
    ∀ element : Schema,
      (∀ xs ys : List Value,
        ((blank.arrayOf element).validate (.array (xs ++ ys))).result =
            (((blank.arrayOf element).validate (.array xs)).result &&
              ((blank.arrayOf element).validate (.array ys)).result) ∧
          ((blank.arrayOf element).validate (.array (xs ++ ys))).events =
            if ((blank.arrayOf element).validate (.array xs)).result then
              ((blank.arrayOf element).validate (.array xs)).events ++
                ((blank.arrayOf element).validate (.array ys)).events
            else ((blank.arrayOf element).validate (.array xs)).events) ∧
      ∀ xs ys : List Value, xs.Perm ys →
        ((blank.arrayOf element).validate (.array xs)).result =
          ((blank.arrayOf element).validate (.array ys)).result := by
  constructor
  · intro p q disjoint v
    exact accepts_object_union disjoint v
  · intro element
    constructor
    · intro xs ys
      have halves : (blank.arrayOf element).validate (.array (xs ++ ys)) =
          ((blank.arrayOf element).validate (.array xs)).both
            ((blank.arrayOf element).validate (.array ys)) := validate_array_append xs ys
      rw [halves, Traced.result_both, Traced.events_both]
      refine ⟨rfl, ?_⟩
      split
      · rfl
      · exact List.append_nil _
    · intro xs ys perm
      exact accepts_array_of_perm perm

/-- Properties with names apart are declared together, and items change places. -/
theorem composites_decompose_swap :
    ((NameMap.ofList [("id", blank.string)]).Disjoint (NameMap.ofList [("age", blank.number)]) ∧
      ((blank.declare (.object ((NameMap.ofList [("id", blank.string)]).union
          (NameMap.ofList [("age", blank.number)])))).validate
            (.ofProperties [("id", .string "a")])).result =
        (((blank.object [("id", blank.string)]).validate
            (.ofProperties [("id", .string "a")])).result &&
          ((blank.object [("age", blank.number)]).validate
            (.ofProperties [("id", .string "a")])).result)) ∧
    [Value.null, .string "a"].Perm [.string "a", .null] ∧
      ((blank.arrayOf blank.string).validate (.array [.null, .string "a"])).result =
        ((blank.arrayOf blank.string).validate (.array [.string "a", .null])).result := by
  have disjoint : (NameMap.ofList [("id", blank.string)]).Disjoint
      (NameMap.ofList [("age", blank.number)]) := by
    intro key
    by_cases eq : key = "id"
    · subst eq
      exact .inr rfl
    · apply Or.inl
      rw [NameMap.get?_ofList_cons, if_neg eq]
      rfl
  have swap : [Value.null, .string "a"].Perm [.string "a", .null] := List.Perm.swap _ _ []
  exact ⟨⟨disjoint, composites_decompose.1 _ _ disjoint _⟩, swap,
    (composites_decompose.2 blank.string).2 _ _ swap⟩

end Schema

end SchemaValidation
