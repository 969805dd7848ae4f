import SchemaValidation.Traced

/-!
# Schemas

A schema is a kind with a schema for every part, a flag that says whether a value is required, and
refinements: predicates that an accepted value satisfies beyond its type.

Schemas are built fluently, `Schema.blank.number.which p`.  A call changes one aspect and keeps the
others; declaring a kind anew forgets the children of the kind before.  `Schema.Call` names the
calls, so that a schema can also be built from a list of them.
-/

namespace SchemaValidation

/-- A total test of a value, which may report events. -/
abbrev Predicate : Type := Value → Traced Bool

structure Schema where
  kind : Kind Schema
  /-- An absent value is only accepted where none is required. -/
  required : Bool
  refinements : List Predicate

namespace Schema

/-- The schema at which building starts: required, of no declared kind, without refinements. -/
def blank : Schema := ⟨.unset, true, []⟩

instance : Inhabited Schema := ⟨blank⟩

/-- Declare the kind, in place of the one before. -/
def declare (s : Schema) (kind : Kind Schema) : Schema := { s with kind }

def string (s : Schema) : Schema := s.declare .string

def number (s : Schema) : Schema := s.declare .number

def boolean (s : Schema) : Schema := s.declare .boolean

/-- Objects with some properties.  Where a name occurs twice, the later schema counts. -/
def object (s : Schema) (properties : List (String × Schema)) : Schema :=
  s.declare (.object (NameMap.ofList properties))

def anyObject (s : Schema) : Schema := s.declare (.object NameMap.empty)

def arrayOf (s element : Schema) : Schema := s.declare (.array element)

def oneOf (s : Schema) (alternatives : List Schema) : Schema := s.declare (.union alternatives)

/-- Let the value be absent. -/
def optional (s : Schema) : Schema := { s with required := false }

/-- Add a refinement after the others. -/
def which (s : Schema) (p : Predicate) : Schema := { s with refinements := s.refinements ++ [p] }

/-- Another name of `which`. -/
def refine (s : Schema) (p : Predicate) : Schema := s.which p

/-- One call in the building of a schema. -/
inductive Call where
  | string
  | number
  | boolean
  | object (properties : List (String × Schema))
  | anyObject
  | arrayOf (element : Schema)
  | oneOf (alternatives : List Schema)
  | optional
  | which (p : Predicate)
  | refine (p : Predicate)

def apply (s : Schema) : Call → Schema
  | .string => s.string
  | .number => s.number
  | .boolean => s.boolean
  | .object properties => s.object properties
  | .anyObject => s.anyObject
  | .arrayOf element => s.arrayOf element
  | .oneOf alternatives => s.oneOf alternatives
  | .optional => s.optional
  | .which p => s.which p
  | .refine p => s.refine p

/-- Apply calls in order. -/
def applyAll (s : Schema) (calls : List Call) : Schema := calls.foldl apply s

/-- Every schema is built from schemas for its parts. -/
theorem induction {P : Schema → Prop}
    (node : ∀ kind required refinements, (∀ s ∈ kind.children, P s) →
      P ⟨kind, required, refinements⟩) (s : Schema) : P s := by
  refine @Schema.rec P (fun kind => ∀ s ∈ kind.children, P s)
    (fun _ properties => ∀ s ∈ properties.items, P s)
    (fun alternatives => ∀ s ∈ alternatives, P s)
    ?_ ?_ ?_ ?_ ?_ ?_ ?_ ?_ ?_ ?_ ?_ ?_ s
  · exact fun kind required refinements h => node kind required refinements h
  all_goals simp_all [Kind.children, Bindings.items]

end Schema

end SchemaValidation
