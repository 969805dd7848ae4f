import SchemaValidation.Proofs.Numerals
import SchemaValidation.Proofs.Undeclared

/-!
# Path texts

The text of a step is a mark, which is `.`, `[` or `|`, and what follows it: a name, a bracket or a
numeral.  A bracket or a numeral holds no mark.  If the names hold none either, a step ends where the
next mark stands, and the position can be read off its path (`Position.text_inj`).

Names are not restricted in any way, so a schema may well declare names with marks.  Two of its
nodes may then have the same path.
-/

namespace SchemaValidation

namespace Text

/-- A character at which a step begins. -/
def isMark (c : Char) : Bool := c = '.' || c = '[' || c = '|'

/-- No step begins within the text. -/
def Unmarked (text : List Char) : Prop := ∀ c ∈ text, isMark c = false

instance (text : List Char) : Decidable (Unmarked text) :=
  List.decidableBAll (isMark · = false) text

theorem unmarked_toDigits (n : Nat) : Unmarked (Nat.toDigits 10 n) := by
  intro c mem
  cases marked : isMark c with
  | false => rfl
  | true =>
    have digit : c.isDigit = true := isDigit_of_mem_toDigits mem
    simp only [isMark, Bool.or_eq_true, decide_eq_true_eq] at marked
    rcases marked with (rfl | rfl) | rfl <;> cases digit

/-- What holds no mark ends where a mark stands, or with the text. -/
theorem takeWhile_unmarked_append {text rest : List Char} (h : Unmarked text)
    (stop : rest.takeWhile (!isMark ·) = []) :
    (text ++ rest).takeWhile (!isMark ·) = text := by
  rw [List.takeWhile_append_of_pos fun c mem => by rw [h c mem]; rfl, stop, List.append_nil]

end Text

open Text

namespace Step

def mark : Step → Char
  | .property _ => '.'
  | .element => '['
  | .alternative _ => '|'

/-- What follows the mark. -/
def body : Step → List Char
  | .property name => name.toList
  | .element => [']']
  | .alternative index => Nat.toDigits 10 index

theorem isMark_mark (step : Step) : isMark step.mark = true := by cases step <;> rfl

theorem toList_text (step : Step) : step.text.toList = step.mark :: step.body := by
  cases step with
  | property name => rw [text, String.toList_append]; rfl
  | element => rfl
  | alternative index => rw [text, String.toList_append, toList_toString]; rfl

theorem eq_of_mark_eq {a b : Step} (mark : a.mark = b.mark) (body : a.body = b.body) : a = b := by
  cases a with
  | property m =>
    cases b with
    | property n => exact congrArg property (String.toList_injective body)
    | element | alternative => cases mark
  | element =>
    cases b with
    | element => rfl
    | property | alternative => cases mark
  | alternative i =>
    cases b with
    | alternative j => exact congrArg alternative (toDigits_injective body)
    | property | element => cases mark

/-- Only a name can hold a mark. -/
theorem unmarked_body {step : Step}
    (h : ∀ name, step = .property name → Unmarked name.toList) : Unmarked step.body := by
  cases step with
  | property name => exact h name rfl
  | element => decide
  | alternative index => exact unmarked_toDigits index

end Step

namespace Position

/-- The path without the sign of the root. -/
def chars (p : Position) : List Char := p.flatMap fun step => step.mark :: step.body

theorem chars_cons (step : Step) (rest : Position) :
    chars (step :: rest) = step.mark :: (step.body ++ chars rest) := by
  rw [chars, List.flatMap_cons, List.cons_append]
  rfl

theorem toList_text (p : Position) : p.text.toList = '$' :: p.chars := by
  rw [text, String.toList_append, String.toList_join, List.flatMap_map]
  simp only [Step.toList_text]
  rfl

/-- Before the first step, there is nothing without a mark. -/
theorem takeWhile_chars (p : Position) : p.chars.takeWhile (!isMark ·) = [] := by
  cases p with
  | nil => rfl
  | cons step rest => rw [chars_cons, List.takeWhile_cons, step.isMark_mark]; rfl

/-- No name on the way to the position holds a mark. -/
def Unmarked (p : Position) : Prop := ∀ name, .property name ∈ p → Text.Unmarked name.toList

theorem takeWhile_body_append {step : Step} {rest : Position} (h : Unmarked (step :: rest)) :
    (step.body ++ rest.chars).takeWhile (!isMark ·) = step.body :=
  takeWhile_unmarked_append
    (Step.unmarked_body fun name eq => h name (eq ▸ List.mem_cons_self)) rest.takeWhile_chars

theorem chars_inj {p q : Position} (hp : p.Unmarked) (hq : q.Unmarked)
    (h : p.chars = q.chars) : p = q := by
  induction p generalizing q with
  | nil =>
    cases q with
    | nil => rfl
    | cons b q => rw [chars_cons] at h; cases h
  | cons a p ih =>
    cases q with
    | nil => rw [chars_cons] at h; cases h
    | cons b q =>
      rw [chars_cons, chars_cons] at h
      obtain ⟨marks, others⟩ := List.cons.inj h
      -- both steps end where the next mark stands
      have bodies : a.body = b.body := by
        rw [← takeWhile_body_append hp, others, takeWhile_body_append hq]
      rw [bodies] at others
      rw [Step.eq_of_mark_eq marks bodies, ih (fun name mem => hp name (.tail _ mem))
        (fun name mem => hq name (.tail _ mem)) (List.append_cancel_left others)]

/-- Where names hold no marks, a position is determined by its path. -/
theorem text_inj {p q : Position} (hp : p.Unmarked) (hq : q.Unmarked) :
    p.text = q.text ↔ p = q := by
  refine ⟨fun h => chars_inj hp hq ?_, congrArg text⟩
  have chars := congrArg String.toList h
  rw [toList_text, toList_text] at chars
  exact (List.cons.inj chars).2

end Position

/-- The names of the properties that a kind declares. -/
def Kind.propertyNames {σ : Type} : Kind σ → List String
  | .object properties => properties.names
  | _ => []

namespace Schema

variable {s : Schema}

/-- No declared name holds a mark. -/
def NamesUnmarked (s : Schema) : Prop :=
  s.Everywhere fun t => ∀ name ∈ t.kind.propertyNames, Text.Unmarked name.toList

theorem mem_propertyNames_of_child? {name : String} {c : Schema}
    (h : s.child? (.property name) = some c) : name ∈ s.kind.propertyNames := by
  obtain ⟨kind, required, refinements⟩ := s
  cases kind with
  | object properties =>
    exact List.mem_map_of_mem (Bindings.mem_toList_iff.mpr h)
  | unset | string | number | boolean | array | union => cases h

/-- A position of the schema goes through declared names only. -/
theorem NamesUnmarked.unmarked {p : Position} (h : s.NamesUnmarked) (found : (s.node? p).isSome) :
    p.Unmarked := by
  induction p generalizing s with
  | nil => exact nofun
  | cons step rest ih =>
    obtain ⟨node, found⟩ := Option.isSome_iff_exists.mp found
    obtain ⟨c, hc, below⟩ := Option.bind_eq_some_iff.mp found
    intro name mem
    rcases List.mem_cons.mp mem with eq | later
    · exact h.root name (mem_propertyNames_of_child? (eq ▸ hc))
    · exact ih (h.child (mem_children_iff.mpr ⟨step, hc⟩)) (by rw [below]; rfl) name later

theorem UndeclaredAt.isSome_node? {p : Position} (h : s.UndeclaredAt p) : (s.node? p).isSome := by
  obtain ⟨node, found, -⟩ := h
  exact Option.isSome_of_eq_some found

/-- If no declared name holds a mark, then no two positions of the schema have the same path.  So no
path is listed twice, and a listed path stands for one position, which is that of an undeclared
node. -/
theorem undeclaredPaths_unambiguous (h : s.NamesUnmarked) :
    (∀ p q, (s.node? p).isSome → (s.node? q).isSome → p.text = q.text → p = q) ∧
    s.undeclaredPaths.Nodup ∧
    ∀ path ∈ s.undeclaredPaths, ∃ p, s.UndeclaredAt p ∧ p.text = path ∧
      ∀ q, (s.node? q).isSome → q.text = path → q = p := by
  have injective : ∀ p q, (s.node? p).isSome → (s.node? q).isSome → p.text = q.text → p = q :=
    fun p q hp hq => (Position.text_inj (h.unmarked hp) (h.unmarked hq)).mp
  refine ⟨injective, ?_, ?_⟩
  · rw [undeclaredPaths_eq, List.Nodup, List.pairwise_map]
    refine s.pairwise_undeclared.imp_of_mem fun hp hq lt eq => ?_
    have same := injective _ _ (mem_undeclared_iff.mp hp).isSome_node?
      (mem_undeclared_iff.mp hq).isSome_node? eq
    exact ne_of_irrefl lt same
  · intro path mem
    obtain ⟨p, undeclared, rfl⟩ := mem_undeclaredPaths_iff.mp mem
    exact ⟨p, undeclared, rfl, fun q hq eq => injective q p hq undeclared.isSome_node? eq⟩

/-- One name is empty, and the other looks like a bracket after a numeral. -/
theorem undeclaredPaths_unambiguous_brackets :
    (blank.object [("", blank.arrayOf blank), ("0]", blank)]).NamesUnmarked ∧
    (blank.object [("", blank.arrayOf blank), ("0]", blank)]).undeclaredPaths = ["$.[]", "$.0]"] ∧
    ∃ p, (blank.object [("", blank.arrayOf blank), ("0]", blank)]).UndeclaredAt p ∧
      p.text = "$.[]" := by
  have unset : blank.NamesUnmarked := everywhere_iff.mpr ⟨by decide, List.forall_mem_nil _⟩
  have array : (blank.arrayOf blank).NamesUnmarked :=
    everywhere_iff.mpr ⟨by decide, List.forall_mem_singleton.mpr unset⟩
  have unmarked : (blank.object [("", blank.arrayOf blank), ("0]", blank)]).NamesUnmarked :=
    everywhere_iff.mpr ⟨by decide, List.forall_mem_cons.mpr
      ⟨array, List.forall_mem_singleton.mpr unset⟩⟩
  obtain ⟨-, -, stands⟩ := undeclaredPaths_unambiguous unmarked
  obtain ⟨p, undeclared, text, -⟩ := stands "$.[]" (by decide)
  exact ⟨unmarked, by decide, p, undeclared, text⟩

-- with a mark in a name, two nodes have the same path
example : (blank.object [("a", blank.object [("b", blank)]), ("a.b", blank)]).undeclaredPaths =
    ["$.a.b", "$.a.b"] := by decide

end Schema

end SchemaValidation
