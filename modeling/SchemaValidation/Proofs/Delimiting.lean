import Mathlib.Data.List.TakeWhile

/-!
# Texts that end by themselves

A text is read off the front of a longer one if its end can be told from what comes after it.
`Text.Delimited P a b` says so of two texts at once: wherever longer texts that begin with `a` and
with `b` are the same, what comes after them is the same too, and `P` holds of what they stand for.

A text put together from such texts is one of them (`Delimited.append`).  Words and names in quotes
are such texts, and so are lists of them, whatever their length, together with the sign that closes
them (`delimited_intercalate`).
-/

namespace SchemaValidation

namespace Text

/-- Where longer texts that begin with `a` and with `b` are the same, `P` holds, and both go on
alike. -/
def Delimited (P : Prop) (a b : String) : Prop :=
  ∀ rest rest' : String, a ++ rest = b ++ rest' → P ∧ rest = rest'

namespace Delimited

variable {P Q : Prop} {a b a' b' : String}

theorem of_eq (h : Delimited P a b) (same : a = b) : P :=
  (h "" "" (by rw [same])).1

theorem imp (h : Delimited P a b) (f : P → Q) : Delimited Q a b := by
  intro rest rest' same
  obtain ⟨p, rests⟩ := h rest rest' same
  exact ⟨f p, rests⟩

/-- The second parts are compared only where the first ones stand for the same. -/
theorem append (first : Delimited P a b) (second : P → Delimited Q a' b') :
    Delimited (P ∧ Q) (a ++ a') (b ++ b') := by
  intro rest rest' same
  rw [String.append_assoc, String.append_assoc] at same
  obtain ⟨p, same⟩ := first _ _ same
  obtain ⟨q, rests⟩ := second p _ _ same
  exact ⟨⟨p, q⟩, rests⟩

/-- Of a given text there is nothing to read off. -/
theorem literal (p : P) (text : String) : Delimited P text text :=
  fun _ _ same => ⟨p, (String.append_right_inj text).mp same⟩

/-- The same text before both. -/
theorem after (text : String) (h : Delimited P a b) : Delimited P (text ++ a) (text ++ b) :=
  ((literal trivial text).append fun _ => h).imp And.right

/-- The same text behind both. -/
theorem before (h : Delimited P a b) (text : String) : Delimited P (a ++ text) (b ++ text) :=
  (h.append fun _ => literal trivial text).imp And.left

end Delimited

/-- Words that differ in their first letters are told apart, whatever comes after them. -/
theorem delimited_of_take {α : Type} {word : α → String} {n : Nat} {x y : α}
    (long : ∀ x, n ≤ (word x).toList.length)
    (told : (word x).toList.take n = (word y).toList.take n → x = y) :
    Delimited (x = y) (word x) (word y) := by
  intro rest rest' same
  have fronts := congrArg (fun s : String => s.toList.take n) same
  simp only [String.toList_append, List.take_append_of_le_length (long _)] at fronts
  obtain rfl := told fronts
  exact ⟨rfl, (String.append_right_inj _).mp same⟩

/-- A name without quotes ends where a quote stands. -/
theorem takeWhile_name_append {name : String} (unquoted : '"' ∉ name.toList) (rest : List Char) :
    (name.toList ++ '"' :: rest).takeWhile (· ≠ '"') = name.toList := by
  have whole : ∀ c ∈ name.toList, decide (c ≠ '"') = true := by
    intro c mem
    rw [decide_eq_true_iff]
    rintro rfl
    exact unquoted mem
  rw [List.takeWhile_append_of_pos whole, List.takeWhile_cons_of_neg (by simp), List.append_nil]

theorem delimited_quoted {m n : String} (hm : '"' ∉ m.toList) (hn : '"' ∉ n.toList) :
    Delimited (m = n) ("\"" ++ m ++ "\"") ("\"" ++ n ++ "\"") := by
  intro rest rest' same
  have chars : m.toList ++ '"' :: rest.toList = n.toList ++ '"' :: rest'.toList := by
    simpa using congrArg String.toList same
  have names : m.toList = n.toList := by
    rw [← takeWhile_name_append hm, chars, takeWhile_name_append hn]
  obtain rfl := String.toList_injective names
  exact ⟨rfl, (String.append_right_inj _).mp same⟩

/-! ## Lists -/

theorem head?_append {a : String} {c : Char} (h : a.toList.head? = some c) (b : String) :
    (a ++ b).toList.head? = some c := by
  rw [String.toList_append, List.head?_append, h, Option.some_or]

/-- Texts with different first characters are never continued to the same text. -/
theorem delimited_of_ne {P : Prop} {a b : String} {c d : Char} (ha : a.toList.head? = some c)
    (hb : b.toList.head? = some d) (other : c ≠ d) : Delimited P a b := by
  intro rest rest' same
  have heads := head?_append ha rest
  rw [same, head?_append hb] at heads
  exact (other (Option.some.inj heads).symm).elim

theorem intercalate_cons (separator first : String) (others : List String) :
    separator.intercalate (first :: others) = first ++ .join (others.map (separator ++ ·)) := by
  induction others generalizing first with
  | nil => rw [String.intercalate_singleton, List.map_nil, String.join_nil, String.append_empty]
  | cons next others ih =>
    rw [String.intercalate_cons_cons, ih, List.map_cons, String.join_cons, String.append_assoc,
      String.append_assoc]

section

variable {α : Type} {text : α → String} {as bs : List α} {closing : String} {first stop : Char}
  (items : ∀ a ∈ as, ∀ b ∈ bs, Delimited (a = b) (text a) (text b))
  (closes : closing.toList.head? = some stop) (comma : stop ≠ ',')

include items closes comma

/-- After an item, either a comma and another item follow or the list is closed. -/
theorem delimited_others : Delimited (as = bs)
    (.join ((as.map text).map (", " ++ ·)) ++ closing)
    (.join ((bs.map text).map (", " ++ ·)) ++ closing) := by
  have goesOn (text others : String) :
      (", " ++ text ++ others ++ closing).toList.head? = some ',' := by simp
  induction as generalizing bs with
  | nil =>
    cases bs with
    | nil => exact .literal rfl _
    | cons b bs =>
      rw [List.map_nil, List.map_nil, String.join_nil, String.empty_append, List.map_cons,
        List.map_cons, String.join_cons]
      exact delimited_of_ne closes (goesOn _ _) comma
  | cons a as ih =>
    cases bs with
    | nil =>
      rw [List.map_nil, List.map_nil, String.join_nil, String.empty_append, List.map_cons,
        List.map_cons, String.join_cons]
      exact delimited_of_ne (goesOn _ _) closes comma.symm
    | cons b bs =>
      have item := items a List.mem_cons_self b List.mem_cons_self
      have others := ih fun a ha b hb =>
        items a (List.mem_cons_of_mem _ ha) b (List.mem_cons_of_mem _ hb)
      simp only [List.map_cons, String.join_cons, String.append_assoc]
      exact ((item.append fun _ => others).after ", ").imp List.cons_eq_cons.mpr

/-- A list is read off if its items are, none of them begins like the closing text, and that does
not begin with a comma. -/
theorem delimited_intercalate (begins : ∀ a, (text a).toList.head? = some first)
    (other : first ≠ stop) : Delimited (as = bs)
    (", ".intercalate (as.map text) ++ closing) (", ".intercalate (bs.map text) ++ closing) := by
  have opens (a : α) (as : List α) :
      (", ".intercalate ((a :: as).map text) ++ closing).toList.head? = some first := by
    rw [List.map_cons, intercalate_cons, String.append_assoc]
    exact head?_append (begins a) _
  cases as with
  | nil =>
    rw [List.map_nil, String.intercalate_nil, String.empty_append]
    cases bs with
    | nil =>
      rw [List.map_nil, String.intercalate_nil, String.empty_append]
      exact .literal rfl _
    | cons b bs => exact delimited_of_ne closes (opens b bs) other.symm
  | cons a as =>
    cases bs with
    | nil =>
      rw [List.map_nil, String.intercalate_nil, String.empty_append]
      exact delimited_of_ne (opens a as) closes other
    | cons b bs =>
      have item := items a List.mem_cons_self b List.mem_cons_self
      have others := delimited_others (fun a ha b hb =>
        items a (List.mem_cons_of_mem _ ha) b (List.mem_cons_of_mem _ hb)) closes comma
      rw [List.map_cons, List.map_cons, intercalate_cons, intercalate_cons, String.append_assoc,
        String.append_assoc]
      exact (item.append fun _ => others).imp List.cons_eq_cons.mpr

end

end Text

end SchemaValidation
