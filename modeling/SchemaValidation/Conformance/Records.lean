import SchemaValidation.Predicate
import SchemaValidation.Value.Conversion

/-!
# People and locations

The schemas of an example: people, locations, and a collection in which every person's hometown is
the name of a location and no two locations have the same name.
-/

namespace SchemaValidation

namespace Conformance

open Schema (blank)

def personSchema : Schema := blank.object [
  ("name", blank.string),
  ("nickname", blank.optional.string),
  ("hometown", blank.string),
  ("age", blank.number.which (.above (.ofInt 5))),
  ("hobbies", blank.optional.arrayOf <|
    blank.string.which (.test fun v => v.string? != some "illegal activities")),
  ("favoriteNumberOrColor", blank.optional.oneOf [blank.string, blank.number])]

def locationSchema : Schema := blank.object [
  ("name", blank.string),
  ("coordinates", blank.arrayOf blank.number),
  ("population", blank.optional.number)]

/-- The elements of an array property, none if there is no such array. -/
def records (v : Value) (name : String) : List Value := (v.get name).items?.getD []

/-- Every person's hometown is the name of a location. -/
def hometownsResolve (v : Value) : Bool :=
  (records v "people").all fun person =>
    (records v "locations").any fun location => location.get "name" == person.get "hometown"

/-- Every name is new when its turn comes: it was not seen before. -/
def allNew (seen : List (Option String)) : List (Option String) → Bool
  | [] => true
  | name :: rest => !seen.contains name && allNew (name :: seen) rest

/-- No two locations have the same name. -/
def locationNamesUnique (v : Value) : Bool :=
  allNew [] ((records v "locations").map fun location => (location.get "name").string?)

def everythingSchema : Schema :=
  ((blank.object [
    ("people", blank.arrayOf personSchema),
    ("locations", blank.arrayOf locationSchema)]).which (.test hometownsResolve)).which
      (.test locationNamesUnique)

end Conformance

end SchemaValidation
