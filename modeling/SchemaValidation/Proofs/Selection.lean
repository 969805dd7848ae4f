import SchemaValidation.Conformance.Case
import Mathlib.Data.List.Infix

/-!
# Selection

Which cases a filter selects.  A filter matches a description if some part of it is the filter, up
to the case of ASCII letters, and without a filter every description matches
(`Conformance.Matches`).  The cases that are selected are those whose descriptions match, in order,
so that their descriptions depend on nothing else of the cases.
-/

namespace SchemaValidation

namespace Text

/-- Some part of the text is the needle, up to the case of ASCII letters. -/
def Holds (text needle : String) : Prop :=
  ∃ before part after, text.toList = before ++ part ++ after ∧
    part.map Char.toLower = needle.toList.map Char.toLower

theorem holdsIgnoringCase_iff {text needle : String} :
    holdsIgnoringCase text needle = true ↔ Holds text needle := by
  rw [holdsIgnoringCase, occursIn_iff, foldCase, foldCase, List.infix_map_iff]
  constructor
  · rintro ⟨part, ⟨before, after, eq⟩, folded⟩
    exact ⟨before, part, after, eq.symm, folded.symm⟩
  · rintro ⟨before, part, after, eq, folded⟩
    exact ⟨part, ⟨before, after, eq.symm⟩, folded.symm⟩

end Text

namespace Conformance

/-- The description holds the filter, if there is one. -/
def Matches (filter : Option String) (description : String) : Prop :=
  ∀ needle ∈ filter, Text.Holds description needle

variable {filter : Option String} {cases others : List Case}

theorem matches_iff {description : String} :
    Matches filter description ↔ filter.all (Text.holdsIgnoringCase description) = true := by
  cases filter <;> simp [Matches, Text.holdsIgnoringCase_iff]

instance (filter : Option String) (description : String) : Decidable (Matches filter description) :=
  decidable_of_iff' _ matches_iff

theorem select_eq (filter : Option String) (cases : List Case) :
    select filter cases = cases.filter fun c => Matches filter c.description := by
  cases filter with
  | none => simp [select, Matches]
  | some needle => simp [select, matches_iff]

theorem mem_select_iff {c : Case} :
    c ∈ select filter cases ↔ c ∈ cases ∧ Matches filter c.description := by
  rw [select_eq, List.mem_filter, decide_eq_true_iff]

/-- The descriptions of the cases that a filter selects. -/
theorem map_description_select (filter : Option String) (cases : List Case) :
    (select filter cases).map Case.description =
      (cases.map Case.description).filter fun d => Matches filter d := by
  rw [select_eq, List.filter_map]
  rfl

theorem select_eq_nil_iff :
    select filter cases = [] ↔ ∀ c ∈ cases, ¬Matches filter c.description := by
  rw [select_eq, List.filter_eq_nil_iff]
  simp only [decide_eq_true_iff]

/-- Whether anything is selected can be told from the descriptions. -/
theorem select_eq_nil_congr (h : others.map Case.description = cases.map Case.description) :
    select filter others = [] ↔ select filter cases = [] := by
  rw [← List.map_eq_nil_iff (f := Case.description), map_description_select, h,
    ← map_description_select, List.map_eq_nil_iff]

end Conformance

end SchemaValidation
