import SchemaValidation.Schema.Basic

/-!
# Outlines of schemas

The outline of a schema is what can be seen of it without evaluating anything: the kind and the flag
of every node, and how many refinements it has.  The refinements themselves cannot be shown.

`Outline.debugText` writes an outline out in one line.  Names are not escaped in it: it is the text
that is shown for a schema only where names hold no quotes, backslashes, or characters that cannot
be printed.
-/

namespace SchemaValidation

structure Outline where
  kind : Kind Outline
  required : Bool
  refinements : Nat

namespace Schema

mutual

def outline : Schema → Outline
  | ⟨kind, required, refinements⟩ => ⟨outlineKind kind, required, refinements.length⟩
termination_by structural s => s

def outlineKind : Kind Schema → Kind Outline
  | .unset => .unset
  | .string => .string
  | .number => .number
  | .boolean => .boolean
  | .object properties => .object (outlineProperties properties)
  | .array element => .array element.outline
  | .union alternatives => .union (outlineAll alternatives)
termination_by structural kind => kind

def outlineProperties {floor : Option String} : Bindings Schema floor → Bindings Outline floor
  | .nil => .nil
  | .cons name follows child rest => .cons name follows child.outline (outlineProperties rest)
termination_by structural properties => properties

def outlineAll : List Schema → List Outline
  | [] => []
  | s :: rest => s.outline :: outlineAll rest
termination_by structural schemas => schemas

end

theorem outlineProperties_eq_map {floor : Option String} (properties : Bindings Schema floor) :
    outlineProperties properties = properties.map outline := by
  induction properties with
  | nil => rfl
  | cons name follows child rest ih => rw [outlineProperties, ih, Bindings.map_cons]

theorem outlineAll_eq_map (schemas : List Schema) : outlineAll schemas = schemas.map outline := by
  induction schemas with
  | nil => rfl
  | cons s rest ih => rw [outlineAll, ih, List.map_cons]

end Schema

namespace Outline

mutual

/-- The outline in one line. -/
def debugText : Outline → String
  | ⟨kind, required, refinements⟩ =>
    "Schema \x7b node: Node \x7b kind: " ++ kindText kind ++
      ", required: " ++ (if required then "true" else "false") ++
      ", refinements: [" ++ ", ".intercalate (.replicate refinements "Refinement(..)") ++
      "] \x7d \x7d"
termination_by structural o => o

def kindText : Kind Outline → String
  | .unset => "Unset"
  | .string => "String"
  | .number => "Number"
  | .boolean => "Boolean"
  | .object properties => "Object(\x7b" ++ ", ".intercalate (propertyTexts properties) ++ "\x7d)"
  | .array element => "Array(" ++ element.debugText ++ ")"
  | .union alternatives => "Union([" ++ ", ".intercalate (texts alternatives) ++ "])"
termination_by structural kind => kind

/-- The properties, each with its name in quotes.  The name stands there as it is, and what would
have to be escaped between quotes is not. -/
def propertyTexts {floor : Option String} : Bindings Outline floor → List String
  | .nil => []
  | .cons name _ child rest => ("\"" ++ name ++ "\": " ++ child.debugText) :: propertyTexts rest
termination_by structural properties => properties

def texts : List Outline → List String
  | [] => []
  | o :: rest => o.debugText :: texts rest
termination_by structural outlines => outlines

end

theorem debugText_mk (kind : Kind Outline) (required : Bool) (refinements : Nat) :
    debugText ⟨kind, required, refinements⟩ =
      "Schema \x7b node: Node \x7b kind: " ++ kindText kind ++
        ", required: " ++ (if required then "true" else "false") ++
        ", refinements: [" ++ ", ".intercalate (.replicate refinements "Refinement(..)") ++
        "] \x7d \x7d" := rfl

/-- A property, with its name in quotes as it is. -/
def propertyText (property : String × Outline) : String :=
  "\"" ++ property.1 ++ "\": " ++ property.2.debugText

theorem propertyTexts_eq_map {floor : Option String} (properties : Bindings Outline floor) :
    propertyTexts properties = properties.toList.map propertyText := by
  induction properties with
  | nil => rfl
  | cons name follows child rest ih =>
    rw [propertyTexts, ih]
    rfl

theorem texts_eq_map (outlines : List Outline) : texts outlines = outlines.map debugText := by
  induction outlines with
  | nil => rfl
  | cons o rest ih => rw [texts, ih, List.map_cons]

end Outline

/-- The outline of the schema in one line. -/
def Schema.debugText (s : Schema) : String := s.outline.debugText

end SchemaValidation
