import SchemaValidation.Predicate
import SchemaValidation.Proofs.Nodes
import SchemaValidation.Proofs.Visit
import Mathlib.Data.Set.Basic
import Mathlib.Logic.Relation

/-!
# What an evaluation observes

Of a value an evaluation sees the types of its parts, the lengths of its arrays, and of its objects
what is found under the names that the schema declares; the refinements see as much as they look at.
Values that agree in this are `Similar`, and where the refinements do not tell them apart they have
the same verdict and the same events.

So the contents of leaves, properties of other names, and whether a property is missing or absent
never matter, at whatever depth and however many of them change at once (`Alters`).
-/

namespace SchemaValidation

/-- Values that agree in their types, in the lengths of arrays and in the properties of the observed
names. -/
inductive Similar (observed : Set String) : Value → Value → Prop
  | absent : Similar observed .absent .absent
  | null : Similar observed .null .null
  | boolean (b c : Bool) : Similar observed (.boolean b) (.boolean c)
  | number (x y : Double) : Similar observed (.number x) (.number y)
  | string (s t : String) : Similar observed (.string s) (.string t)
  | array {xs ys : List Value} (items : List.Forall₂ (Similar observed) xs ys) :
      Similar observed (.array xs) (.array ys)
  | object {p q : NameMap Value}
      (properties : ∀ name ∈ observed,
        Similar observed ((Value.object p).get name) ((Value.object q).get name)) :
      Similar observed (.object p) (.object q)

namespace Similar

variable {observed : Set String} {v w : Value}

theorem typeName_eq (h : Similar observed v w) : v.typeName = w.typeName := by
  cases h <;> rfl

theorem isAbsent_eq (h : Similar observed v w) : v.isAbsent = w.isAbsent := by
  rw [Value.isAbsent, Value.isAbsent, h.typeName_eq]

theorem get (h : Similar observed v w) {name : String} (mem : name ∈ observed) :
    Similar observed (v.get name) (w.get name) := by
  cases h with
  | object properties => exact properties name mem
  | _ => exact .absent

theorem items (h : Similar observed v w) :
    List.Forall₂ (Similar observed) (v.items?.getD []) (w.items?.getD []) := by
  cases h with
  | array items => exact items
  | _ => exact .nil

protected theorem refl (observed : Set String) (v : Value) : Similar observed v v := by
  induction v using Value.induction with
  | absent => exact .absent
  | null => exact .null
  | boolean b => exact .boolean b b
  | number x => exact .number x x
  | string s => exact .string s s
  | array items ih => exact .array (List.forall₂_same.mpr ih)
  | object properties ih =>
    refine .object fun name _ => ?_
    rw [Value.get_object]
    cases found : properties.get? name with
    | none => exact .absent
    | some item => exact ih item (Bindings.mem_items_iff.mpr ⟨name, found⟩)

end Similar

theorem forall₂_zipIdx {α β : Type} {R : α → β → Prop} {as : List α} {bs : List β}
    (h : List.Forall₂ R as bs) (n : Nat) :
    List.Forall₂ (fun a b => R a.1 b.1 ∧ a.2 = b.2) (as.zipIdx n) (bs.zipIdx n) := by
  induction h generalizing n with
  | nil => exact .nil
  | cons first _ ih => exact .cons ⟨first, rfl⟩ (ih (n + 1))

/-- The parts of visits to one node with similar values are similar in turn. -/
theorem Similar.parts {observed : Set String} {s : Schema} {v w : Value}
    (declared : ∀ name child, s.child? (.property name) = some child → name ∈ observed)
    (h : Similar observed v w) :
    List.Forall₂ (fun a b => a.2.node = b.2.node ∧ Similar observed a.2.value b.2.value)
      (Visit.mk s v).parts (Visit.mk s w).parts := by
  obtain ⟨kind, required, refinements⟩ := s
  cases kind with
  | unset | string | number | boolean => exact .nil
  | object properties =>
    simp only [Visit.parts, h.typeName_eq]
    split
    · refine List.forall₂_map_left_iff.mpr (List.forall₂_map_right_iff.mpr ?_)
      refine List.forall₂_same.mpr fun binding mem => ⟨rfl, ?_⟩
      exact h.get (declared binding.1 binding.2 (Bindings.mem_toList_iff.mp mem))
    · exact .nil
  | array element =>
    simp only [Visit.parts]
    refine List.forall₂_map_left_iff.mpr (List.forall₂_map_right_iff.mpr ?_)
    exact (forall₂_zipIdx h.items 0).imp fun _ _ both => ⟨rfl, both.1⟩
  | union alternatives =>
    simp only [Visit.parts, h.isAbsent_eq]
    by_cases settled : (!required && w.isAbsent) = true
    · rw [if_pos settled, if_pos settled]
      exact .nil
    · rw [if_neg settled, if_neg settled]
      refine List.forall₂_map_left_iff.mpr (List.forall₂_map_right_iff.mpr ?_)
      exact List.forall₂_same.mpr fun _ _ => ⟨rfl, h⟩

namespace Schema

theorem refinementsHold_congr {kind : KindName} {ps : List Predicate} {v w : Value}
    (h : ∀ p ∈ ps, p v = p w) : refinementsHold kind ps v = refinementsHold kind ps w := by
  refine allM_congr (List.forall₂_same.mpr ?_)
  rintro ⟨p, index⟩ mem
  show (p v).onReject _ = (p w).onReject _
  rw [h p (List.fst_mem_of_mem_zipIdx mem)]

/-- Similar values of names that include the declared ones, which the refinements do not tell apart,
are evaluated alike. -/
theorem validate_congr {observed : Set String} {s : Schema}
    (declared : s.Everywhere fun t =>
      ∀ name child, t.child? (.property name) = some child → name ∈ observed)
    (blind : s.Everywhere fun t =>
      ∀ p ∈ t.refinements, ∀ v w, Similar observed v w → p v = p w)
    {v w : Value} (h : Similar observed v w) : s.validate v = s.validate w := by
  induction s using Schema.induction generalizing v w with
  | node kind required refinements ih =>
    have parts : List.Forall₂ (fun a b => a.2.run = b.2.run)
        (Visit.mk ⟨kind, required, refinements⟩ v).parts
        (Visit.mk ⟨kind, required, refinements⟩ w).parts := by
      have children : ∀ a ∈ (Visit.mk ⟨kind, required, refinements⟩ v).parts,
          a.2.node ∈ kind.children := fun _ mem => Visit.mem_children_of_mem_parts mem
      have similar := (List.forall₂_and_left _ _).mpr ⟨children, h.parts declared.root⟩
      refine similar.imp fun a b ⟨child, node, alike⟩ => ?_
      rw [Visit.run, Visit.run, ← node]
      exact ih a.2.node child (declared.child child) (blind.child child) alike
    have fits : fits kind required v = fits kind required w := by
      rw [Visit.fits_eq_search ⟨⟨kind, required, refinements⟩, v⟩,
        Visit.fits_eq_search ⟨⟨kind, required, refinements⟩, w⟩]
      exact Visit.search_congr rfl h.typeName_eq parts
    have refined : refinementsHold kind.name refinements v =
        refinementsHold kind.name refinements w :=
      refinementsHold_congr fun p hp => blind.root p hp v w h
    rw [validate_eq, validate_eq, h.isAbsent_eq, h.typeName_eq, fits, refined]

/-- The names that some node of the schema declares. -/
def declared (s : Schema) : Set String :=
  {name | ∃ position t child, s.node? position = some t ∧ t.child? (.property name) = some child}

end Schema

/-! ## Alterations -/

/-- One change to a value, at any depth, that leaves the observed names as they are. -/
inductive Alters (observed : Set String) : Value → Value → Prop
  | boolean (b c : Bool) : Alters observed (.boolean b) (.boolean c)
  | number (x y : Double) : Alters observed (.number x) (.number y)
  | string (s t : String) : Alters observed (.string s) (.string t)
  /-- A property of another name is added, changed or removed. -/
  | unobserved {p q : NameMap Value} {name : String} (mem : name ∉ observed)
      (others : ∀ other, other ≠ name → p.get? other = q.get? other) :
      Alters observed (.object p) (.object q)
  /-- A missing property becomes an absent one. -/
  | absent {p q : NameMap Value} {name : String} (missing : p.get? name = none)
      (absent : q.get? name = some .absent)
      (others : ∀ other, other ≠ name → p.get? other = q.get? other) :
      Alters observed (.object p) (.object q)
  | item {v w : Value} (before after : List Value) (inner : Alters observed v w) :
      Alters observed (.array (before ++ v :: after)) (.array (before ++ w :: after))
  | property {p q : NameMap Value} {name : String} {v w : Value} (inner : Alters observed v w)
      (old : p.get? name = some v) (new : q.get? name = some w)
      (others : ∀ other, other ≠ name → p.get? other = q.get? other) :
      Alters observed (.object p) (.object q)

/-- Objects that agree but for one name are similar if what is found under it is. -/
theorem Similar.object_of_others {observed : Set String} {p q : NameMap Value} {name : String}
    (others : ∀ other, other ≠ name → p.get? other = q.get? other)
    (h : name ∈ observed →
      Similar observed ((Value.object p).get name) ((Value.object q).get name)) :
    Similar observed (.object p) (.object q) := by
  refine .object fun other mem => ?_
  by_cases eq : other = name
  · subst eq
    exact h mem
  · rw [Value.get_object, Value.get_object, others other eq]
    exact .refl observed _

theorem Alters.similar {observed : Set String} {v w : Value} (h : Alters observed v w) :
    Similar observed v w := by
  induction h with
  | boolean b c => exact .boolean b c
  | number x y => exact .number x y
  | string s t => exact .string s t
  | unobserved mem others => exact .object_of_others others fun seen => (mem seen).elim
  | absent missing absent others =>
    refine .object_of_others others fun _ => ?_
    rw [Value.get_object, Value.get_object, missing, absent]
    exact .absent
  | item before after _ ih =>
    have same (vs : List Value) : List.Forall₂ (Similar observed) vs vs :=
      List.forall₂_same.mpr fun v _ => .refl observed v
    exact .array (List.rel_append (same before) (.cons ih (same after)))
  | property _ old new others ih =>
    refine .object_of_others others fun _ => ?_
    rw [Value.get_object, Value.get_object, old, new]
    exact ih

/-- Where no refinement tells similar values apart, neither does the evaluation, by its verdict or
by its events; nor any number of alterations that leave the declared names as they are. -/
theorem Schema.validate_eq_of_similar {s : Schema}
    (blind : s.Everywhere fun t =>
      ∀ p ∈ t.refinements, ∀ v w, Similar s.declared v w → p v = p w) :
    (∀ v w, Similar s.declared v w → s.validate v = s.validate w) ∧
      ∀ v w, Relation.EqvGen (Alters s.declared) v w → s.validate v = s.validate w := by
  have declared : s.Everywhere fun t =>
      ∀ name child, t.child? (.property name) = some child → name ∈ s.declared :=
    fun position t found name child declares => ⟨position, t, child, found, declares⟩
  have similar (v w : Value) (h : Similar s.declared v w) : s.validate v = s.validate w :=
    validate_congr declared blind h
  refine ⟨similar, fun v w h => ?_⟩
  induction h with
  | rel v w h => exact similar v w h.similar
  | refl v => rfl
  | symm v w _ ih => exact ih.symm
  | trans u v w _ _ ih ih' => exact ih.trans ih'

/-- The note says of which type the object is, and its other property is not looked at. -/
theorem Schema.validate_eq_of_similar_object :
    ((blank.object [("id", blank.string)]).which
        (.noting "seen" (.test fun v => !v.isAbsent))).Everywhere (fun t =>
      ∀ p ∈ t.refinements, ∀ v w, Similar ((blank.object [("id", blank.string)]).which
        (.noting "seen" (.test fun v => !v.isAbsent))).declared v w → p v = p w) ∧
    Similar ((blank.object [("id", blank.string)]).which
        (.noting "seen" (.test fun v => !v.isAbsent))).declared
      (.ofProperties [("id", .string "a"), ("age", .null)]) (.ofProperties [("id", .string "b")]) ∧
    ((blank.object [("id", blank.string)]).which
        (.noting "seen" (.test fun v => !v.isAbsent))).validate
      (.ofProperties [("id", .string "a"), ("age", .null)]) =
    ((blank.object [("id", blank.string)]).which
        (.noting "seen" (.test fun v => !v.isAbsent))).validate
      (.ofProperties [("id", .string "b")]) := by
  have blind : ((blank.object [("id", blank.string)]).which
      (.noting "seen" (.test fun v => !v.isAbsent))).Everywhere fun t =>
        ∀ p ∈ t.refinements, ∀ v w, Similar ((blank.object [("id", blank.string)]).which
          (.noting "seen" (.test fun v => !v.isAbsent))).declared v w → p v = p w := by
    refine everywhere_iff.mpr ⟨List.forall_mem_singleton.mpr fun v w h => ?_,
      List.forall_mem_singleton.mpr (everywhere_iff.mpr ⟨nofun, nofun⟩)⟩
    rw [Predicate.noting, Predicate.noting, h.typeName_eq, Predicate.test, Predicate.test,
      h.isAbsent_eq]
  have single : ((blank.object [("id", blank.string)]).which
      (.noting "seen" (.test fun v => !v.isAbsent))).Everywhere fun t =>
        ∀ name child, t.child? (.property name) = some child → name = "id" := by
    refine everywhere_iff.mpr ⟨fun name child found => ?_,
      List.forall_mem_singleton.mpr (everywhere_iff.mpr ⟨nofun, nofun⟩)⟩
    exact (Option.ite_none_right_eq_some.mp found).1
  have similar : Similar ((blank.object [("id", blank.string)]).which
        (.noting "seen" (.test fun v => !v.isAbsent))).declared
      (.ofProperties [("id", .string "a"), ("age", .null)])
      (.ofProperties [("id", .string "b")]) := by
    refine .object ?_
    rintro name ⟨position, t, child, found, declares⟩
    cases single position t found name child declares
    exact .string "a" "b"
  exact ⟨blind, similar, (validate_eq_of_similar blind).1 _ _ similar⟩

end SchemaValidation
