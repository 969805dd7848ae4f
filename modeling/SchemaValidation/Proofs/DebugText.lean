import SchemaValidation.Proofs.Delimiting
import SchemaValidation.Proofs.Shape

/-!
# Debug texts

The debug text of a schema writes its outline out.  Names stand in it as they are, so they must not
hold a quote; no other character matters, and a name may look like any other part of the text.

Such a text ends by itself (`Outline.delimited_debugText`).  That is an induction over the outline:
wherever two texts are the same, so are the words at the beginning, then the children one after the
other, the flags and the numbers of refinements.  So nothing of the shape is lost
(`Schema.debugText_determines_shape`).
-/

namespace SchemaValidation

open Text

/-- No declared name of the node holds a quote. -/
def Kind.NamesUnquoted {σ : Type} (k : Kind σ) : Prop :=
  ∀ name ∈ k.propertyNames, '"' ∉ name.toList

/-- The word that a kind begins with. -/
def KindName.opening : KindName → String
  | .unset => "Unset"
  | .string => "String"
  | .number => "Number"
  | .boolean => "Boolean"
  | .object => "Object(\x7b"
  | .array => "Array("
  | .union => "Union(["

/-- Three letters are enough to tell the words apart. -/
theorem delimited_opening (k l : KindName) : Delimited (k = l) k.opening l.opening := by
  apply delimited_of_take (n := 3)
  · intro k
    cases k <;> decide
  · cases k <;> cases l <;> decide

theorem delimited_flag (b c : Bool) :
    Delimited (b = c) (if b then "true" else "false") (if c then "true" else "false") := by
  cases b with
  | false =>
    cases c with
    | false => exact .literal rfl _
    | true => exact delimited_of_ne (c := 'f') (d := 't') rfl rfl (by decide)
  | true =>
    cases c with
    | false => exact delimited_of_ne (c := 't') (d := 'f') rfl rfl (by decide)
    | true => exact .literal rfl _

namespace Outline

/-- No name in the outline holds a quote. -/
inductive Unquoted : Outline → Prop
  | node {kind : Kind Outline} {required : Bool} {refinements : Nat}
      (names : kind.NamesUnquoted) (children : ∀ o ∈ kind.children, Unquoted o) :
      Unquoted ⟨kind, required, refinements⟩

theorem head?_debugText (o : Outline) : o.debugText.toList.head? = some 'S' := by
  obtain ⟨kind, required, refinements⟩ := o
  rw [debugText_mk]
  simp only [String.append_assoc]
  exact head?_append rfl _

theorem head?_propertyText (p : String × Outline) : (propertyText p).toList.head? = some '"' := by
  rw [propertyText, String.append_assoc, String.append_assoc]
  exact head?_append rfl _

theorem delimited_propertyText {p q : String × Outline} (hp : '"' ∉ p.1.toList)
    (hq : '"' ∉ q.1.toList) (h : Delimited (p.2 = q.2) p.2.debugText q.2.debugText) :
    Delimited (p = q) (propertyText p) (propertyText q) := by
  have split (p : String × Outline) :
      propertyText p = "\"" ++ p.1 ++ "\"" ++ (": " ++ p.2.debugText) := by
    have quote : "\": " = "\"" ++ ": " := rfl
    rw [propertyText, quote]
    simp only [String.append_assoc]
  rw [split, split]
  exact ((delimited_quoted hp hq).append fun _ => h.after ": ").imp fun same =>
    Prod.ext same.1 same.2

theorem delimited_refinements (m n : Nat) : Delimited (m = n)
    (", ".intercalate (.replicate m "Refinement(..)") ++ "] \x7d \x7d")
    (", ".intercalate (.replicate n "Refinement(..)") ++ "] \x7d \x7d") := by
  have counted (n : Nat) : List.replicate n "Refinement(..)" =
      (List.replicate n ()).map fun _ => "Refinement(..)" := by rw [List.map_replicate]
  have lists : Delimited (List.replicate m () = List.replicate n ())
      (", ".intercalate ((List.replicate m ()).map fun _ => "Refinement(..)") ++ "] \x7d \x7d")
      (", ".intercalate ((List.replicate n ()).map fun _ => "Refinement(..)") ++ "] \x7d \x7d") :=
    delimited_intercalate (fun _ _ _ _ => .literal rfl _) rfl (by decide) (fun _ => rfl) (by decide)
  rw [counted, counted]
  exact lists.imp fun same => by simpa using congrArg List.length same

theorem delimited_object {p q : NameMap Outline}
    (properties : ∀ a ∈ p.toList, ∀ b ∈ q.toList,
      Delimited (a = b) (propertyText a) (propertyText b)) :
    Delimited (p = q) (kindText (.object p)) (kindText (.object q)) := by
  have listed : Delimited (p.toList = q.toList)
      (", ".intercalate (p.toList.map propertyText) ++ "\x7d)")
      (", ".intercalate (q.toList.map propertyText) ++ "\x7d)") :=
    delimited_intercalate properties rfl (by decide) head?_propertyText (by decide)
  rw [kindText, kindText, propertyTexts_eq_map, propertyTexts_eq_map, String.append_assoc,
    String.append_assoc]
  exact (listed.after "Object(\x7b").imp Bindings.toList_injective

theorem delimited_union {as bs : List Outline}
    (alternatives : ∀ a ∈ as, ∀ b ∈ bs, Delimited (a = b) a.debugText b.debugText) :
    Delimited (as = bs) (kindText (.union as)) (kindText (.union bs)) := by
  have listed : Delimited (as = bs) (", ".intercalate (as.map debugText) ++ "])")
      (", ".intercalate (bs.map debugText) ++ "])") :=
    delimited_intercalate alternatives rfl (by decide) head?_debugText (by decide)
  rw [kindText, kindText, texts_eq_map, texts_eq_map, String.append_assoc, String.append_assoc]
  exact listed.after "Union(["

theorem exists_kindText_eq (k : Kind Outline) :
    ∃ inside, kindText k = k.name.opening ++ inside := by
  cases k with
  | unset | string | number | boolean => exact ⟨"", rfl⟩
  | object | array | union => exact ⟨_, String.append_assoc⟩

section

variable {k l : Kind Outline}

/-- Kinds of different names begin with different words. -/
theorem delimited_of_name_ne {P : Prop} (other : k.name ≠ l.name) :
    Delimited P (kindText k) (kindText l) := by
  obtain ⟨inside, eq⟩ := exists_kindText_eq k
  obtain ⟨inside', eq'⟩ := exists_kindText_eq l
  rw [eq, eq']
  exact ((delimited_opening k.name l.name).append (Q := P) fun same => (other same).elim).imp
    And.right

variable (hk : k.NamesUnquoted) (hl : l.NamesUnquoted)
  (children : ∀ c ∈ k.children, ∀ d ∈ l.children, Delimited (c = d) c.debugText d.debugText)

include hk hl children

theorem delimited_of_name_eq (same : k.name = l.name) :
    Delimited (k = l) (kindText k) (kindText l) := by
  cases k <;> cases l <;> cases same
  case object.object p q =>
    refine (delimited_object fun a ha b hb => ?_).imp (congrArg Kind.object)
    exact delimited_propertyText (hk _ (List.mem_map_of_mem ha)) (hl _ (List.mem_map_of_mem hb))
      (children _ (List.mem_map_of_mem ha) _ (List.mem_map_of_mem hb))
  case array.array c d =>
    have element := children c List.mem_cons_self d List.mem_cons_self
    rw [kindText, kindText]
    exact ((element.after "Array(").before ")").imp (congrArg Kind.array)
  case union.union as bs => exact (delimited_union children).imp (congrArg Kind.union)
  all_goals exact .literal rfl _

theorem delimited_kindText : Delimited (k = l) (kindText k) (kindText l) := by
  by_cases same : k.name = l.name
  · exact delimited_of_name_eq hk hl children same
  · exact delimited_of_name_ne same

end

/-- The debug text of an outline can be read off the front of any text, and it is that of no other
outline. -/
theorem delimited_debugText {o o' : Outline} (h : o.Unquoted) (h' : o'.Unquoted) :
    Delimited (o = o') o.debugText o'.debugText := by
  induction h generalizing o' with
  | @node kind required refinements names children ih =>
    cases h' with
    | @node kind' required' refinements' names' children' =>
      -- a child is compared with every child of the other outline, as lists may be of any length
      have kinds := delimited_kindText names names' fun c hc d hd => ih c hc (children' d hd)
      have flags := delimited_flag required required'
      have counts := delimited_refinements refinements refinements'
      rw [debugText_mk, debugText_mk]
      simp only [String.append_assoc]
      refine ((kinds.append fun _ => (flags.append fun _ => counts.after _).after _).after _).imp ?_
      rintro ⟨rfl, rfl, rfl⟩
      rfl

end Outline

namespace Schema

variable {s t : Schema}

/-- No declared name holds a quote.  That is so of all names in which nothing would have to be
escaped between quotes. -/
def NamesUnquoted (s : Schema) : Prop := s.Everywhere fun t => t.kind.NamesUnquoted

theorem NamesUnquoted.outline (h : s.NamesUnquoted) : s.outline.Unquoted := by
  induction s using Schema.induction with
  | node kind required refinements ih =>
    rw [outline_eq]
    refine .node ?_ ?_
    · rw [Kind.NamesUnquoted, propertyNames_outlineKind]
      exact h.root
    · rw [children_outlineKind]
      intro o mem
      obtain ⟨c, hc, rfl⟩ := List.mem_map.mp mem
      exact ih c hc (h.child hc)

/-- Schemas of the same shape have the same debug text: of their refinements it shows how many there
are, and nothing else.  If no declared name holds a quote, the converse is true as well, and schemas
with the same debug text have the same shape at every depth. -/
theorem debugText_determines_shape (s t : Schema) :
    (s.SameShape t → s.debugText = t.debugText) ∧
    (s.NamesUnquoted → t.NamesUnquoted → s.debugText = t.debugText → s.SameShape t) := by
  constructor
  · intro same
    exact congrArg Outline.debugText (outline_eq_iff_sameShape.mpr same)
  · intro hs ht same
    have outlines : s.outline = t.outline :=
      (Outline.delimited_debugText hs.outline ht.outline).of_eq same
    exact outline_eq_iff_sameShape.mp outlines

/-- A union without alternatives, an object without properties, which has a refinement, and names
that are empty or look like other parts of the text. -/
def punctuated (p : Predicate) : Schema :=
  blank.object [("\x7d), ", blank.oneOf
    [blank.oneOf [], blank.object [("", (blank.arrayOf (blank.anyObject.which p)).optional)]])]

theorem debugText_determines_shape_punctuated :
    (punctuated fun _ => pure true).NamesUnquoted ∧
    (punctuated fun _ => pure false).NamesUnquoted ∧
    (punctuated fun _ => pure true).debugText = (punctuated fun _ => pure false).debugText ∧
    (punctuated fun _ => pure true).SameShape (punctuated fun _ => pure false) := by
  have empty : '"' ∉ "".toList := by decide
  have marks : '"' ∉ "\x7d), ".toList := by decide
  have unquoted (p : Predicate) : (punctuated p).NamesUnquoted := by
    have none : (blank.oneOf []).NamesUnquoted :=
      everywhere_iff.mpr ⟨List.forall_mem_nil _, List.forall_mem_nil _⟩
    have any : (blank.anyObject.which p).NamesUnquoted :=
      everywhere_iff.mpr ⟨List.forall_mem_nil _, List.forall_mem_nil _⟩
    have array : (blank.arrayOf (blank.anyObject.which p)).optional.NamesUnquoted :=
      everywhere_iff.mpr ⟨List.forall_mem_nil _, List.forall_mem_singleton.mpr any⟩
    have object : (blank.object
        [("", (blank.arrayOf (blank.anyObject.which p)).optional)]).NamesUnquoted :=
      everywhere_iff.mpr
        ⟨List.forall_mem_singleton.mpr empty, List.forall_mem_singleton.mpr array⟩
    have union : (blank.oneOf [blank.oneOf [], blank.object
        [("", (blank.arrayOf (blank.anyObject.which p)).optional)]]).NamesUnquoted :=
      everywhere_iff.mpr ⟨List.forall_mem_nil _, List.forall_mem_cons.mpr
        ⟨none, List.forall_mem_singleton.mpr object⟩⟩
    exact everywhere_iff.mpr
      ⟨List.forall_mem_singleton.mpr marks, List.forall_mem_singleton.mpr union⟩
  have same :
      (punctuated fun _ => pure true).debugText = (punctuated fun _ => pure false).debugText := rfl
  exact ⟨unquoted _, unquoted _, same,
    (debugText_determines_shape _ _).2 (unquoted _) (unquoted _) same⟩

-- the name reads like the end of an object
example : (blank.object [("\x7d), ", blank.string)]).debugText =
    "Schema \x7b node: Node \x7b kind: Object(\x7b\"\x7d), \": " ++
      "Schema \x7b node: Node \x7b kind: String, required: true, refinements: [] \x7d \x7d" ++
      "\x7d), required: true, refinements: [] \x7d \x7d" := by decide +kernel

end Schema

end SchemaValidation
