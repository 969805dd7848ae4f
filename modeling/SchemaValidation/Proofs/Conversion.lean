import SchemaValidation.Proofs.Depth
import SchemaValidation.Value.Conversion

/-!
# Values of JSON trees

A value that was made from a JSON tree has the structure of the tree, at any depth: what occurs in it
was made from a part of the tree (`Value.exists_of_occurs_ofJson`), and a chain of lookups leads to
what was made from that to which it leads in the tree (`Value.follow_ofJson`).  Nothing that was made
from JSON is absent or a NaN, so a lookup finds the absent value only where the tree has nothing, and
the value is equal to itself.

Of the tree the value keeps all but the difference between numbers that become equal doubles
(`Json.Alike`).
-/

namespace SchemaValidation

/-! ## Trees -/

namespace Json

/-- The part of a tree that a lookup finds. -/
def child? (j : Json) (a : Access) : Option Json :=
  match j, a with
  | .object members, .property name => members.get? name
  | .array items, .index i => items[i]?
  | _, _ => none

/-- The part of a tree that a chain of lookups leads to. -/
def follow? (j : Json) : List Access → Option Json
  | [] => some j
  | a :: path => (j.child? a).bind (follow? · path)

/-- Trees of the same structure, with the same leaves but for numbers that become equal doubles. -/
inductive Alike : Json → Json → Prop
  | null : Alike .null .null
  | boolean (b : Bool) : Alike (.boolean b) (.boolean b)
  | number {m n : JsonNumber} (equal : (m.toDouble == n.toDouble) = true) :
      Alike (.number m) (.number n)
  | string (s : String) : Alike (.string s) (.string s)
  | array {js ks : List Json} (items : List.Forall₂ Alike js ks) : Alike (.array js) (.array ks)
  | object {m n : NameMap Json}
      (members : ∀ name, Option.Rel Alike (m.get? name) (n.get? name)) :
      Alike (.object m) (.object n)

theorem alike_boolean_iff {b c : Bool} : Alike (.boolean b) (.boolean c) ↔ b = c := by
  constructor
  · rintro ⟨⟩
    rfl
  · rintro rfl
    exact .boolean b

theorem alike_number_iff {m n : JsonNumber} :
    Alike (.number m) (.number n) ↔ (m.toDouble == n.toDouble) = true := by
  constructor
  · rintro ⟨equal⟩
    assumption
  · exact .number

theorem alike_string_iff {s t : String} : Alike (.string s) (.string t) ↔ s = t := by
  constructor
  · rintro ⟨⟩
    rfl
  · rintro rfl
    exact .string s

theorem alike_array_iff {js ks : List Json} :
    Alike (.array js) (.array ks) ↔ List.Forall₂ Alike js ks := by
  constructor
  · rintro ⟨⟩
    assumption
  · exact .array

theorem alike_object_iff {m n : NameMap Json} :
    Alike (.object m) (.object n) ↔ ∀ name, Option.Rel Alike (m.get? name) (n.get? name) := by
  constructor
  · rintro ⟨⟩
    assumption
  · exact .object

end Json

namespace Value

variable {j k : Json} {v : Value}

/-! ## What occurs -/

theorem ofJson_ne_absent (j : Json) : ofJson j ≠ .absent := by
  cases j <;> exact nofun

/-- Whatever occurs in the value of a tree was made from a tree. -/
theorem exists_of_occurs_ofJson (occurs : Occurs v (ofJson j)) : ∃ k, v = ofJson k := by
  induction j using Json.induction with
  | null | boolean | number | string =>
    cases occurs
    exact ⟨_, rfl⟩
  | array items ih =>
    rw [ofJson_array] at occurs
    cases occurs with
    | here => exact ⟨_, (ofJson_array items).symm⟩
    | item mem inside =>
      obtain ⟨j, part, rfl⟩ := List.mem_map.mp mem
      exact ih j part inside
  | object members ih =>
    rw [ofJson_object] at occurs
    cases occurs with
    | here => exact ⟨_, (ofJson_object members).symm⟩
    | property found inside =>
      rw [Bindings.get?_map, Option.map_eq_some_iff] at found
      obtain ⟨j, part, rfl⟩ := found
      exact ih j (Bindings.mem_items_iff.mpr ⟨_, part⟩) inside

theorem not_occurs_absent_ofJson (j : Json) : ¬Occurs .absent (ofJson j) := by
  intro occurs
  obtain ⟨k, eq⟩ := exists_of_occurs_ofJson occurs
  exact ofJson_ne_absent k eq.symm

theorem nanFree_ofJson (j : Json) : (ofJson j).NaNFree := by
  intro x occurs
  obtain ⟨k, eq⟩ := exists_of_occurs_ofJson occurs
  cases k with
  | number n =>
    cases eq
    exact n.isNaN_toDouble
  | _ => cases eq

/-! ## What lookups find -/

theorem access_ofJson (j : Json) (a : Access) :
    (ofJson j).access a = ((j.child? a).map ofJson).getD .absent := by
  cases j with
  | array items =>
    cases a with
    | property name => rfl
    | index i => simp [access, Json.child?]
  | object members =>
    cases a with
    | property name => simp [access, Json.child?, Bindings.get?_map]
    | index i => rfl
  | _ => cases a <;> rfl

/-- Lookups in the value lead where they lead in the tree. -/
theorem follow_ofJson (j : Json) (path : List Access) :
    (ofJson j).follow path = ((j.follow? path).map ofJson).getD .absent := by
  induction path generalizing j with
  | nil => rfl
  | cons a path ih =>
    rw [follow_cons, access_ofJson, Json.follow?]
    cases j.child? a with
    | none => exact follow_absent path
    | some k => exact ih k

theorem follow_ofJson_eq_absent_iff {path : List Access} :
    (ofJson j).follow path = .absent ↔ j.follow? path = none := by
  rw [follow_ofJson]
  cases j.follow? path with
  | none => exact iff_of_true rfl rfl
  | some k => exact iff_of_false (ofJson_ne_absent k) nofun

/-! ## What is kept -/

/-- The value keeps what makes trees alike, and nothing else. -/
theorem ofJson_beq_iff : (ofJson j == ofJson k) = true ↔ j.Alike k := by
  induction j using Json.induction generalizing k with
  | null =>
    cases k with
    | null => exact iff_of_true rfl .null
    | _ => exact iff_of_false (fun equal => by cases equal) fun alike => by cases alike
  | boolean b =>
    cases k with
    | boolean c => rw [ofJson, ofJson, boolean_beq, beq_iff_eq, Json.alike_boolean_iff]
    | _ => exact iff_of_false (fun equal => by cases equal) fun alike => by cases alike
  | number m =>
    cases k with
    | number n => rw [ofJson, ofJson, number_beq, Json.alike_number_iff]
    | _ => exact iff_of_false (fun equal => by cases equal) fun alike => by cases alike
  | string s =>
    cases k with
    | string t => rw [ofJson, ofJson, string_beq, beq_iff_eq, Json.alike_string_iff]
    | _ => exact iff_of_false (fun equal => by cases equal) fun alike => by cases alike
  | array items ih =>
    cases k with
    | array items' =>
      rw [ofJson_array, ofJson_array, array_beq_iff, List.forall₂_map_left_iff,
        List.forall₂_map_right_iff, Json.alike_array_iff]
      exact forall₂_congr_of_mem fun j mem k => ih j mem
    | _ => exact iff_of_false (fun equal => by cases equal) fun alike => by cases alike
  | object members ih =>
    cases k with
    | object members' =>
      rw [ofJson_object, ofJson_object, object_beq_iff, Json.alike_object_iff]
      refine forall_congr' fun name => ?_
      rw [Bindings.get?_map, Bindings.get?_map, optionRel_map_iff]
      exact optionRel_congr_of_mem fun j found k =>
        ih j (Bindings.mem_items_iff.mpr ⟨name, found⟩)
    | _ => exact iff_of_false (fun equal => by cases equal) fun alike => by cases alike

/-- Null, booleans, numbers, strings, arrays and objects become values of their own type, by
structure.  Neither the absent value nor a NaN occurs in the value of a tree, at any depth, so it is
equal to itself.  A chain of lookups in it finds what was made from that to which the chain leads in
the tree, and the absent value exactly if it leads nowhere.  The values of two trees are equal exactly
if the trees have the same structure, names and leaves, but for numbers that become equal doubles. -/
theorem ofJson_structural :
    (ofJson .null = .null ∧ (∀ b, ofJson (.boolean b) = .boolean b) ∧
      (∀ n, ofJson (.number n) = .number n.toDouble) ∧ (∀ s, ofJson (.string s) = .string s) ∧
      (∀ items, ofJson (.array items) = .array (items.map ofJson)) ∧
      ∀ members : NameMap Json, ∃ properties : NameMap Value,
        ofJson (.object members) = .object properties ∧
        ∀ name, properties.get? name = (members.get? name).map ofJson) ∧
    (∀ j, ¬Occurs .absent (ofJson j) ∧ (ofJson j).NaNFree ∧ (ofJson j == ofJson j) = true) ∧
    (∀ j path, (ofJson j).follow path = ((j.follow? path).map ofJson).getD .absent ∧
      ((ofJson j).follow path = .absent ↔ j.follow? path = none)) ∧
    ∀ j k, (ofJson j == ofJson k) = true ↔ j.Alike k := by
  refine ⟨⟨rfl, fun b => rfl, fun n => rfl, fun s => rfl, ofJson_array, fun members => ?_⟩,
    fun j => ?_, fun j path => ?_, fun j k => ofJson_beq_iff⟩
  · exact ⟨members.map ofJson, ofJson_object members, Bindings.get?_map ofJson members⟩
  · exact ⟨not_occurs_absent_ofJson j, nanFree_ofJson j, beq_self_iff.mpr (nanFree_ofJson j)⟩
  · exact ⟨follow_ofJson j path, follow_ofJson_eq_absent_iff⟩

-- two integers that become one double
example : (ofJson (.array [.number (.integer 0x20000000000000 (by decide))]) ==
    ofJson (.array [.number (.integer 0x20000000000001 (by decide))])) = true := by decide +kernel

end Value

end SchemaValidation
