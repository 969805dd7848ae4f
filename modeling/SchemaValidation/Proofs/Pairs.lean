import SchemaValidation.Proofs.ByteOrder
import SchemaValidation.Proofs.Depth
import SchemaValidation.Schema.Outline
import SchemaValidation.Schema.Position
import SchemaValidation.Schema.Validate
import Mathlib.Data.List.Nodup

/-!
# What is built from pairs

Objects and object schemas are built from pairs of a name and an item.  The last pair of a name
counts (`NameMap.get?_ofList_eq_some_iff`), and the names are kept in order, so no other trace is
left of how many pairs there were and in which order they came (`NameMap.ofList_eq_iff`).
-/

namespace SchemaValidation

namespace NameMap

variable {α : Type} {pairs pairs' : List (String × α)} {name : String} {item : α}

/-- The last pair of that name holds this item. -/
def LastPair (pairs : List (String × α)) (name : String) (item : α) : Prop :=
  ∃ before after, pairs = before ++ (name, item) :: after ∧ name ∉ after.map Prod.fst

theorem LastPair.mem (h : LastPair pairs name item) : (name, item) ∈ pairs := by
  obtain ⟨before, after, rfl, -⟩ := h
  exact List.mem_append_right before List.mem_cons_self

/-- A pair in front is the last of its name if no other pair has that name. -/
theorem lastPair_cons_iff {b : String × α} :
    LastPair (b :: pairs) name item ↔
      LastPair pairs name item ∨ name ∉ pairs.map Prod.fst ∧ (name, item) = b := by
  constructor
  · rintro ⟨before, after, split, last⟩
    cases before with
    | nil =>
      obtain ⟨rfl, rfl⟩ := List.cons.inj split
      exact .inr ⟨last, rfl⟩
    | cons first before =>
      obtain ⟨rfl, rfl⟩ := List.cons.inj split
      exact .inl ⟨before, after, rfl, last⟩
  · rintro (⟨before, after, rfl, last⟩ | ⟨last, rfl⟩)
    · exact ⟨b :: before, after, rfl, last⟩
    · exact ⟨[], pairs, rfl, last⟩

theorem get?_ofList_eq_none_iff : (ofList pairs).get? name = none ↔ name ∉ pairs.map Prod.fst := by
  induction pairs with
  | nil => simp
  | cons b rest ih => simp [get?_ofList_cons, ih, and_comm]

theorem isSome_get?_ofList_iff : ((ofList pairs).get? name).isSome ↔ name ∈ pairs.map Prod.fst := by
  rw [Option.isSome_iff_ne_none, Ne, get?_ofList_eq_none_iff, not_not]

/-- What is found under a name is the item of the last pair of that name. -/
theorem get?_ofList_eq_some_iff :
    (ofList pairs).get? name = some item ↔ LastPair pairs name item := by
  induction pairs with
  | nil =>
    refine iff_of_false nofun fun last => ?_
    cases last.mem
  | cons b rest ih =>
    obtain ⟨key, first⟩ := b
    rw [get?_ofList_cons, Option.or_eq_some_iff, ih, get?_ofList_eq_none_iff, lastPair_cons_iff,
      Option.ite_none_right_eq_some, Option.some.injEq, Prod.mk.injEq, eq_comm (a := first)]

/-- The lists have pairs of the same names, and the same last item for each of them. -/
structure SameLast (pairs pairs' : List (String × α)) : Prop where
  names : ∀ name, name ∈ pairs.map Prod.fst ↔ name ∈ pairs'.map Prod.fst
  items : ∀ name a b, LastPair pairs name a → LastPair pairs' name b → a = b

/-- This much can be told from the map, and no more. -/
theorem ofList_eq_iff : ofList pairs = ofList pairs' ↔ SameLast pairs pairs' := by
  constructor
  · intro eq
    refine ⟨fun name => ?_, fun name a b last last' => ?_⟩
    · rw [← isSome_get?_ofList_iff, eq, isSome_get?_ofList_iff]
    · rw [← get?_ofList_eq_some_iff, eq] at last
      rw [← get?_ofList_eq_some_iff, last] at last'
      exact Option.some.inj last'
  · intro same
    refine Bindings.ext_get? fun name => ?_
    cases found : (ofList pairs).get? name with
    | none =>
      rw [get?_ofList_eq_none_iff, same.names name, ← get?_ofList_eq_none_iff] at found
      exact found.symm
    | some a =>
      have bound := isSome_get?_ofList_iff.mp (Option.isSome_of_eq_some found)
      rw [same.names name, ← isSome_get?_ofList_iff, Option.isSome_iff_exists] at bound
      obtain ⟨b, found'⟩ := bound
      rw [found', same.items name a b (get?_ofList_eq_some_iff.mp found)
        (get?_ofList_eq_some_iff.mp found')]

/-- The order of pairs of different names does not matter. -/
theorem sameLast_of_perm (perm : pairs.Perm pairs') (nodup : (pairs.map Prod.fst).Nodup) :
    SameLast pairs pairs' where
  names name := (perm.map Prod.fst).mem_iff
  items name a b last last' := by
    have mem : (name, b) ∈ pairs := perm.mem_iff.mpr last'.mem
    exact congrArg Prod.snd (List.inj_on_of_nodup_map nodup last.mem mem rfl)

end NameMap

open NameMap

namespace Value

variable {pairs : List (String × Value)} {name : String} {v : Value}

theorem carries_ofProperties_iff :
    (ofProperties pairs).carries name = true ↔ name ∈ pairs.map Prod.fst :=
  isSome_get?_ofList_iff

theorem get_ofProperties (last : LastPair pairs name v) : (ofProperties pairs).get name = v := by
  rw [ofProperties, get_object, get?_ofList_eq_some_iff.mpr last, Option.getD_some]

/-- A NaN occurs in an object if it occurs in one of the values that count. -/
theorem nanFree_ofProperties_iff :
    (ofProperties pairs).NaNFree ↔ ∀ name v, LastPair pairs name v → v.NaNFree := by
  rw [ofProperties, nanFree_object_iff]
  simp only [get?_ofList_eq_some_iff]

end Value

/-- Of pairs that an object is built from, the last of each name is found under it, and the names
come in strictly increasing order of bytes; and so for object schemas.  Whether there were other
pairs, and in which order they all came, cannot be told: objects from pairs of the same names with
the same last values are the same, and equal if no NaN occurs in these, and schemas have the same
outline, undeclared paths in the same order, and for every value the same verdict and events.  The
order of pairs of different names is among what cannot be told. -/
theorem built_from_last_pairs :
    (∀ pairs : List (String × Value), ∃ properties : NameMap Value,
      Value.ofProperties pairs = .object properties ∧
      (properties.names.map utf8).Pairwise (· < ·) ∧
      (∀ name, (Value.ofProperties pairs).carries name = true ↔ name ∈ pairs.map Prod.fst) ∧
      ∀ name v, LastPair pairs name v → (Value.ofProperties pairs).get name = v) ∧
    (∀ (s : Schema) (pairs : List (String × Schema)), ∃ properties : NameMap Schema,
      (s.object pairs).kind = .object properties ∧
      (properties.names.map utf8).Pairwise (· < ·) ∧
      (∀ name, name ∈ properties.names ↔ name ∈ pairs.map Prod.fst) ∧
      ∀ name child, properties.get? name = some child ↔ LastPair pairs name child) ∧
    (∀ pairs pairs' : List (String × Value), SameLast pairs pairs' →
      Value.ofProperties pairs = Value.ofProperties pairs' ∧
      ((∀ name v, LastPair pairs name v → v.NaNFree) →
        (Value.ofProperties pairs == Value.ofProperties pairs') = true)) ∧
    (∀ (s : Schema) (pairs pairs' : List (String × Schema)), SameLast pairs pairs' →
      (s.object pairs).outline = (s.object pairs').outline ∧
      (s.object pairs).undeclaredPaths = (s.object pairs').undeclaredPaths ∧
      ∀ v, (s.object pairs).validate v = (s.object pairs').validate v) ∧
    (∀ (α : Type) (pairs pairs' : List (String × α)), pairs.Perm pairs' →
      (pairs.map Prod.fst).Nodup → SameLast pairs pairs') := by
  refine ⟨fun pairs => ?_, fun s pairs => ?_, fun pairs pairs' same => ?_,
    fun s pairs pairs' same => ?_, fun α pairs pairs' => sameLast_of_perm⟩
  · refine ⟨ofList pairs, rfl, ?_, fun name => Value.carries_ofProperties_iff,
      fun name v => Value.get_ofProperties⟩
    exact pairwise_map_utf8_iff.mpr (Bindings.pairwise_names _)
  · refine ⟨ofList pairs, rfl, ?_, fun name => ?_, fun name child => get?_ofList_eq_some_iff⟩
    · exact pairwise_map_utf8_iff.mpr (Bindings.pairwise_names _)
    · rw [Bindings.mem_names_iff, isSome_get?_ofList_iff]
  · have eq : Value.ofProperties pairs = Value.ofProperties pairs' := by
      rw [Value.ofProperties, Value.ofProperties, ofList_eq_iff.mpr same]
    refine ⟨eq, fun free => ?_⟩
    rw [← eq, Value.beq_self_iff]
    exact Value.nanFree_ofProperties_iff.mpr free
  · have eq : s.object pairs = s.object pairs' := by
      rw [Schema.object, Schema.object, ofList_eq_iff.mpr same]
    rw [eq]
    exact ⟨rfl, rfl, fun v => rfl⟩

/-- Of two pairs of one name only the later counts, and so it may as well come first where the other
is left out.  Two properties of different names may be declared in either order. -/
theorem built_from_last_pairs_swapped :
    SameLast [("b", Value.null), ("a", .boolean true), ("b", .string "x")]
      [("b", .string "x"), ("a", .boolean true)] ∧
    (Value.ofProperties [("b", .null), ("a", .boolean true), ("b", .string "x")] ==
      Value.ofProperties [("b", .string "x"), ("a", .boolean true)]) = true ∧
    LastPair [("b", Value.null), ("a", .boolean true), ("b", .string "x")] "b" (.string "x") ∧
    (Value.ofProperties [("b", .null), ("a", .boolean true), ("b", .string "x")]).get "b" =
      .string "x" ∧
    SameLast [("a", Schema.string .blank), ("b", .number .blank)]
      [("b", .number .blank), ("a", .string .blank)] ∧
    ∀ v, (Schema.blank.object [("a", .string .blank), ("b", .number .blank)]).validate v =
      (Schema.blank.object [("b", .number .blank), ("a", .string .blank)]).validate v := by
  obtain ⟨values, -, equal, schemas, swaps⟩ := built_from_last_pairs
  obtain ⟨_, -, -, -, get⟩ := values [("b", .null), ("a", .boolean true), ("b", .string "x")]
  have last : LastPair [("b", Value.null), ("a", .boolean true), ("b", .string "x")] "b"
      (.string "x") := ⟨[("b", .null), ("a", .boolean true)], [], rfl, nofun⟩
  have same : SameLast [("b", Value.null), ("a", .boolean true), ("b", .string "x")]
      [("b", .string "x"), ("a", .boolean true)] := ofList_eq_iff.mp rfl
  have swapped := swaps Schema [("a", .string .blank), ("b", .number .blank)]
    [("b", .number .blank), ("a", .string .blank)] (.swap _ _ _) (by decide)
  exact ⟨same, (equal _ _ same).2 (Value.nanFree_ofProperties_iff.mp (Value.beq_self_iff.mp rfl)),
    last, get _ _ last, swapped, (schemas _ _ _ swapped).2.2⟩

end SchemaValidation
