/-!
# Searching texts

Whether a text occurs in another, ASCII letters compared without regard to case.  All other
characters are compared as they are.
-/

namespace SchemaValidation

namespace Text

/-- The characters with ASCII capitals made small. -/
def foldCase (s : String) : List Char := s.toList.map Char.toLower

/-- A list occurs in another as a contiguous part. -/
def occursIn (needle : List Char) : List Char → Bool
  | [] => needle.isEmpty
  | c :: rest => needle.isPrefixOf (c :: rest) || occursIn needle rest

/-- The text holds the needle, up to the case of ASCII letters. -/
def holdsIgnoringCase (text needle : String) : Bool := occursIn (foldCase needle) (foldCase text)

/-- A list occurs in another exactly if that is the list between two others. -/
theorem occursIn_iff {needle text : List Char} :
    occursIn needle text = true ↔ needle <:+: text := by
  induction text with
  | nil => simp [occursIn]
  | cons c rest ih => rw [occursIn, Bool.or_eq_true, List.isPrefixOf_iff_prefix, ih,
      List.infix_cons_iff]

end Text

end SchemaValidation
