import SchemaValidation.Proofs.Depth

/-!
# Equality as lookups show it

What a value shows without a lookup is its head: its type, with a leaf itself, with the length of an
array or the names of an object.  Two values are equal exactly if every chain of lookups leads to
heads that match (`Value.beq_iff_forall_follow`).

Heads are matched without recursion, and only numbers are not simply compared for being the same.
So equality of values is symmetric and transitive because equality of numbers is, and like that it
is not reflexive.
-/

namespace SchemaValidation

namespace Double

variable {x y z : Double}

/-- Only the two zeros have a rank in common. -/
theorem rank_eq_iff : x.rank = y.rank ↔ x = y ∨ x.magnitude = 0 ∧ y.magnitude = 0 := by
  obtain ⟨negative, magnitude, lt⟩ := x
  obtain ⟨negative', magnitude', lt'⟩ := y
  rw [Double.ext_iff]
  cases negative <;> cases negative' <;> simp only [rank] <;> grind

/-- Equal numbers are the same, or zeros of either sign. -/
theorem beq_iff : (x == y) = true ↔
    x.isNaN = false ∧ y.isNaN = false ∧ (x = y ∨ x.magnitude = 0 ∧ y.magnitude = 0) := by
  rw [beq_eq_true, rank_eq_iff]

theorem beq_symm (h : (x == y) = true) : (y == x) = true := by
  obtain ⟨number, number', ranks⟩ := beq_eq_true.mp h
  exact beq_eq_true.mpr ⟨number', number, ranks.symm⟩

theorem beq_trans (h : (x == y) = true) (h' : (y == z) = true) : (x == z) = true := by
  obtain ⟨number, -, ranks⟩ := beq_eq_true.mp h
  obtain ⟨-, number', ranks'⟩ := beq_eq_true.mp h'
  exact beq_eq_true.mpr ⟨number, number', ranks.trans ranks'⟩

end Double

namespace Value

variable {u v w : Value}

/-! ## Heads -/

/-- The values match as far as can be told without a lookup. -/
inductive SameHead : Value → Value → Prop
  | absent : SameHead .absent .absent
  | null : SameHead .null .null
  | boolean (b : Bool) : SameHead (.boolean b) (.boolean b)
  | number {x y : Double} (equal : (x == y) = true) : SameHead (.number x) (.number y)
  | string (s : String) : SameHead (.string s) (.string s)
  | array {xs ys : List Value} (length : xs.length = ys.length) : SameHead (.array xs) (.array ys)
  | object {p q : NameMap Value} (names : p.names = q.names) : SameHead (.object p) (.object q)

namespace SameHead

theorem symm (h : SameHead v w) : SameHead w v := by
  cases h with
  | absent => exact .absent
  | null => exact .null
  | boolean b => exact .boolean b
  | number equal => exact .number (Double.beq_symm equal)
  | string s => exact .string s
  | array length => exact .array length.symm
  | object names => exact .object names.symm

theorem trans (h : SameHead u v) (h' : SameHead v w) : SameHead u w := by
  cases h with
  | absent | null | boolean | string => exact h'
  | number equal => cases h' with
    | number equal' => exact .number (Double.beq_trans equal equal')
  | array length => cases h' with
    | array length' => exact .array (length.trans length')
  | object names => cases h' with
    | object names' => exact .object (names.trans names')

theorem typeName_eq (h : SameHead v w) : v.typeName = w.typeName := by
  cases h <;> rfl

theorem length_items_eq (h : SameHead v w) :
    v.items?.map List.length = w.items?.map List.length := by
  cases h with
  | array length => exact congrArg some length
  | _ => rfl

theorem names_eq (h : SameHead v w) :
    v.properties?.map Bindings.names = w.properties?.map Bindings.names := by
  cases h with
  | object names => exact congrArg some names
  | _ => rfl

theorem carries_eq (h : SameHead v w) (name : String) : v.carries name = w.carries name := by
  cases h with
  | object names =>
    rw [Bool.eq_iff_iff]
    exact Bindings.mem_names_iff.symm.trans (names ▸ Bindings.mem_names_iff)
  | _ => rfl

end SameHead

/-! ## Equality -/

theorem optionRel_getElem? {α β : Type} {R : α → β → Prop} {xs : List α} {ys : List β}
    (h : List.Forall₂ R xs ys) (i : Nat) : Option.Rel R xs[i]? ys[i]? := by
  induction h generalizing i with
  | nil => exact .none
  | cons first _ ih => cases i with
    | zero => exact .some first
    | succ i => exact ih i

/-- Equal objects have the same names. -/
theorem names_eq_of_beq {p q : NameMap Value} (h : (object p == object q) = true) :
    p.names = q.names := by
  have pairs := Bindings.forall₂_toList_iff.mpr (object_beq_iff.mp h)
  rw [Bindings.names, Bindings.names, ← List.forall₂_eq_eq_eq, List.forall₂_map_left_iff,
    List.forall₂_map_right_iff]
  exact pairs.imp fun _ _ same => same.1

theorem sameHead_of_beq (h : (v == w) = true) : SameHead v w := by
  cases v with
  | absent => cases w with
    | absent => exact .absent
    | _ => cases h
  | null => cases w with
    | null => exact .null
    | _ => cases h
  | boolean b => cases w with
    | boolean c =>
      obtain rfl := beq_iff_eq.mp (boolean_beq b c ▸ h)
      exact .boolean b
    | _ => cases h
  | number x => cases w with
    | number y => exact .number h
    | _ => cases h
  | string s => cases w with
    | string t =>
      obtain rfl := beq_iff_eq.mp (string_beq s t ▸ h)
      exact .string s
    | _ => cases h
  | array xs => cases w with
    | array ys => exact .array (array_beq_iff.mp h).length_eq
    | _ => cases h
  | object p => cases w with
    | object q => exact .object (names_eq_of_beq h)
    | _ => cases h

theorem getD_absent_beq {x y : Option Value}
    (h : Option.Rel (fun v w => (v == w) = true) x y) :
    (x.getD .absent == y.getD .absent) = true := by
  cases h with
  | some equal => exact equal
  | none => rfl

/-- A lookup finds equal values in equal values. -/
theorem access_beq (h : (v == w) = true) (a : Access) : (v.access a == w.access a) = true := by
  cases sameHead_of_beq h with
  | absent | null | boolean | number | string => cases a <;> rfl
  | array => cases a with
    | property name => rfl
    | index i =>
      rw [access, access, item_array, item_array, List.getD_eq_getElem?_getD,
        List.getD_eq_getElem?_getD]
      exact getD_absent_beq (optionRel_getElem? (array_beq_iff.mp h) i)
  | object => cases a with
    | property name => exact getD_absent_beq (object_beq_iff.mp h name)
    | index i => rfl

theorem follow_beq (h : (v == w) = true) (path : List Access) :
    (v.follow path == w.follow path) = true := by
  induction path generalizing v w with
  | nil => exact h
  | cons a path ih => exact ih (access_beq h a)

/-- Values are equal if every chain of lookups leads to heads that match. -/
theorem beq_of_forall_follow (h : ∀ path, SameHead (v.follow path) (w.follow path)) :
    (v == w) = true := by
  induction v using Value.induction generalizing w with
  | absent | null | boolean | string =>
    cases h [] with
    | _ => simp [beq_def, equals]
  | number x =>
    cases h [] with
    | number equal => exact equal
  | array xs ih =>
    cases h [] with
    | array length =>
      refine array_beq_iff.mpr (List.forall₂_iff_get.mpr ⟨length, fun i bound bound' => ?_⟩)
      refine ih _ (List.get_mem xs _) fun path => ?_
      simpa [access, bound, bound'] using h (.index i :: path)
  | object p ih =>
    cases h [] with
    | @object _ q names =>
      refine object_beq_iff.mpr fun name => ?_
      have bound : (p.get? name).isSome ↔ (q.get? name).isSome := by
        rw [← Bindings.mem_names_iff, names, Bindings.mem_names_iff]
      cases found : p.get? name with
      | none => cases found' : q.get? name with
        | none => exact .none
        | some w => simp [found, found'] at bound
      | some v => cases found' : q.get? name with
        | none => simp [found, found'] at bound
        | some w =>
          refine .some (ih v (Bindings.mem_items_iff.mpr ⟨name, found⟩) fun path => ?_)
          simpa [access, found, found'] using h (.property name :: path)

/-- Values are equal exactly if no chain of lookups tells them apart. -/
theorem beq_iff_forall_follow :
    (v == w) = true ↔ ∀ path, SameHead (v.follow path) (w.follow path) :=
  ⟨fun h path => sameHead_of_beq (follow_beq h path), beq_of_forall_follow⟩

theorem beq_symm (h : (v == w) = true) : (w == v) = true :=
  beq_iff_forall_follow.mpr fun path => (beq_iff_forall_follow.mp h path).symm

theorem beq_trans (h : (u == v) = true) (h' : (v == w) = true) : (u == w) = true :=
  beq_iff_forall_follow.mpr fun path =>
    (beq_iff_forall_follow.mp h path).trans (beq_iff_forall_follow.mp h' path)

/-- Numbers are equal if neither is a NaN and they are the same, or both zero.  Equality of values
is symmetric and transitive, and a value is equal to itself exactly if no NaN occurs in it.  Equal
values have the same type, as many elements and the same names, and a chain of lookups leads to equal
values in both. -/
theorem beq_partial_equivalence :
    (∀ x y : Double, (number x == number y) = true ↔
      x.isNaN = false ∧ y.isNaN = false ∧ (x = y ∨ x.magnitude = 0 ∧ y.magnitude = 0)) ∧
    (∀ u v : Value, (u == v) = true → (v == u) = true) ∧
    (∀ u v w : Value, (u == v) = true → (v == w) = true → (u == w) = true) ∧
    (∀ v : Value, (v == v) = true ↔ v.NaNFree) ∧
    ∀ u v : Value, (u == v) = true →
      u.typeName = v.typeName ∧
      u.items?.map List.length = v.items?.map List.length ∧
      u.properties?.map Bindings.names = v.properties?.map Bindings.names ∧
      (∀ name, u.carries name = v.carries name) ∧
      ∀ path, (u.follow path == v.follow path) = true := by
  refine ⟨fun x y => ?_, fun u v => beq_symm, fun u v w => beq_trans, fun v => beq_self_iff,
    fun u v h => ?_⟩
  · rw [number_beq, Double.beq_iff]
  · have head := sameHead_of_beq h
    exact ⟨head.typeName_eq, head.length_items_eq, head.names_eq, head.carries_eq, follow_beq h⟩

/-- Zeros of either sign are equal, at whatever depth. -/
theorem beq_partial_equivalence_zeros :
    let zero : Double := ⟨false, 0, by decide⟩
    let negativeZero : Double := ⟨true, 0, by decide⟩
    let u := array [.absent, ofProperties [("a", number zero)]]
    let v := array [.absent, ofProperties [("a", number negativeZero)]]
    (u == v) = true ∧ (v == u) = true ∧ (u == u) = true ∧
      (u.follow [.index 1, .property "a"] == v.follow [.index 1, .property "a"]) = true := by
  intro zero negativeZero u v
  have equal : (u == v) = true := by decide +kernel
  obtain ⟨-, symm, trans, -, alike⟩ := beq_partial_equivalence
  have equal' := symm u v equal
  exact ⟨equal, equal', trans u v u equal equal', (alike u v equal).2.2.2.2 _⟩

end Value

end SchemaValidation
