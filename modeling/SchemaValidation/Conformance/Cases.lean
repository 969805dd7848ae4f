import SchemaValidation.Conformance.Case
import SchemaValidation.Conformance.Records

/-!
# The conformance cases

What the evaluator is expected to do, by example.  `Conformance.cases` lists the cases in the order
in which they run.
-/

namespace SchemaValidation

namespace Conformance

open Schema (blank)

open Value (ofInt ofProperties)

/-- An array with a gap at its end. -/
def stringsWithGap : Value := .array [.string "array", .string "of", .absent]

def stringNumberGap : Value := .array [.string "string", ofInt 42, .absent]

def middleGap : Value := .array [.string "array", .absent, .string "string"]

def arrayOfStrings : Value := toValue ["array", "of", "strings"]

def stringNumberObject : Value := .array [.string "string", ofInt 42, ofProperties []]

def requiredByDefault : Case where
  description := "values are required by default"
  expectations := [
    rejects blank.string .absent,
    rejects blank.number .absent,
    rejects blank.boolean .absent,
    rejects blank.anyObject .absent]

def optionalsAcceptAbsent : Case where
  description := "optional validators accept absent values"
  expectations := [
    accepts blank.optional.string .absent,
    accepts blank.optional.number .absent,
    accepts blank.optional.boolean .absent,
    accepts blank.optional.anyObject .absent]

/-- Every schema rejects the absent value and accepts only the sample of its own kind. -/
def kindsAcceptTheirOwnType : Case where
  description := "kinds accept only their own type"
  expectations :=
    let samples := [.string "string", ofInt 42, .boolean true, ofProperties []]
    [blank.string, blank.number, blank.boolean, blank.anyObject].zipIdx.flatMap fun (s, own) =>
      rejects s .absent :: samples.zipIdx.map fun (v, index) => ⟨s, v, index = own⟩

def undeclaredKindsReject : Case where
  description := "validators without a kind reject"
  expectations :=
    let always : Predicate := .test fun _ => true
    [rejects (blank.which always) .absent,
      rejects (blank.optional.which always) (.string "anything")]

def refinementsConstrain : Case where
  description := "refinements constrain accepted values"
  expectations :=
    let long := blank.string.which (.string (5 < ·.utf8ByteSize))
    let big := blank.number.which (.above (.ofInt 42))
    let truthy := blank.boolean.which (.boolean (· == true))
    let paired := blank.anyObject.which (.test fun v => !v.carries "key1" || v.carries "key2")
    [accepts long (.string "more than 5 chars"),
      rejects long (.string "less"),
      accepts big (ofInt 50),
      rejects big (ofInt 0),
      accepts truthy (.boolean true),
      rejects truthy (.boolean false),
      accepts paired (ofProperties []),
      rejects paired (ofProperties [("key1", .string "value1")]),
      accepts paired (ofProperties [("key1", .string "value1"), ("key2", .string "value2")])]

def refinementsConjoin : Case where
  description := "multiple refinements must all hold"
  expectations :=
    let between := (blank.number.which (.above (.ofInt 5))).which (.below (.ofInt 10))
    [accepts between (ofInt 8), rejects between (ofInt 4), rejects between (ofInt 11)]

def arraysRejectNonArrays : Case where
  description := "arrays reject non-array values"
  expectations := [
    rejects (blank.arrayOf blank.string) (.string "not an array"),
    rejects (blank.arrayOf blank.number) (ofInt 42)]

def arraysCheckEveryElement : Case where
  description := "arrays check every element"
  expectations :=
    let strings := blank.arrayOf blank.string
    [accepts strings arrayOfStrings,
      rejects strings (.array [.string "array", .string "of", ofInt 42]),
      rejects strings stringsWithGap,
      accepts (blank.arrayOf blank.optional.string) stringsWithGap]

def arrayRefinementsCombine : Case where
  description := "array and element refinements combine"
  expectations :=
    let onlyA := blank.string.which (.string (· == "a"))
    [accepts ((blank.arrayOf blank.string).which (.count 3)) arrayOfStrings,
      rejects ((blank.arrayOf blank.string).which (.count 3))
        (toValue ["array", "of", "more", "strings"]),
      accepts (blank.arrayOf onlyA) (toValue ["a", "a", "a"]),
      rejects (blank.arrayOf onlyA) (toValue ["a", "a", "B!"]),
      accepts ((blank.arrayOf onlyA).which (.count 3)) (toValue ["a", "a", "a"]),
      rejects ((blank.arrayOf onlyA).which (.count 3)) (toValue ["a", "a", "a", "a"])]

def optionalArrays : Case where
  description := "optional arrays"
  expectations :=
    let strings := blank.optional.arrayOf blank.string
    let loose := blank.optional.arrayOf blank.optional.string
    [accepts strings .absent,
      accepts strings arrayOfStrings,
      rejects strings (.array [.string "array", .string "of", ofInt 42]),
      accepts loose stringsWithGap,
      rejects loose (.array [.string "array", .string "of", ofInt 42])]

def unionsAcceptAnyAlternative : Case where
  description := "unions accept any alternative"
  expectations :=
    let single := blank.oneOf [blank.string]
    let either := blank.oneOf [blank.string, blank.number]
    [rejects single .absent,
      accepts single (.string "string"),
      rejects single (ofInt 42),
      accepts either (.string "string"),
      accepts either (ofInt 42),
      rejects either (ofProperties []),
      accepts (blank.oneOf [blank.anyObject, blank.number]) (ofProperties []),
      rejects either .absent]

def optionalUnions : Case where
  description := "optional unions"
  expectations :=
    let either := blank.optional.oneOf [blank.number, blank.string]
    [accepts either .absent,
      accepts either (ofInt 42),
      accepts either (.string "string"),
      rejects either (ofProperties [])]

def unionsWithOptionalAlternatives : Case where
  description := "unions with optional alternatives"
  expectations :=
    let single := blank.oneOf [blank.optional.string]
    let mixed := blank.oneOf [blank.string, blank.optional.number]
    [accepts single .absent,
      accepts single (.string "string"),
      rejects single (ofInt 42),
      accepts mixed .absent,
      accepts mixed (.string "string"),
      accepts mixed (ofInt 42),
      rejects mixed (ofProperties [])]

def arraysOfUnions : Case where
  description := "arrays of unions"
  expectations :=
    let either := blank.arrayOf (blank.oneOf [blank.string, blank.number])
    let numberOptional := blank.arrayOf (blank.oneOf [blank.string, blank.optional.number])
    let stringOptional := blank.arrayOf (blank.oneOf [blank.optional.string, blank.number])
    [accepts (blank.arrayOf (blank.oneOf [blank.string])) arrayOfStrings,
      rejects (blank.arrayOf (blank.oneOf [blank.string])) middleGap,
      accepts (blank.arrayOf (blank.oneOf [blank.optional.string])) middleGap,
      accepts either (.array [.string "string", ofInt 42]),
      rejects either stringNumberGap,
      rejects either stringNumberObject,
      accepts numberOptional stringNumberGap,
      accepts stringOptional stringNumberGap,
      rejects numberOptional stringNumberObject]

def simpleObjects : Case where
  description := "simple objects"
  expectations := [
    accepts
      (blank.object [
        ("str", blank.string), ("num", blank.number), ("bln", blank.boolean),
        ("obj", blank.anyObject)])
      (ofProperties [
        ("str", .string "string"), ("num", ofInt 42), ("bln", .boolean false),
        ("obj", ofProperties [])]),
    rejects (blank.object [("str", blank.string), ("num", blank.number)])
      (ofProperties [("str", .string "string")])]

def objectsWithOptionalProperties : Case where
  description := "objects with optional properties"
  expectations :=
    let onlyString := ofProperties [("str", .string "string")]
    [rejects (blank.object [("str", blank.string), ("num", blank.number)]) onlyString,
      accepts (blank.object [("str", blank.string), ("num", blank.optional.number)]) onlyString]

def objectsWithArrayProperties : Case where
  description := "objects with array properties"
  expectations :=
    let numbers := blank.object [("nums", blank.arrayOf blank.number)]
    let gaps := blank.object [("nums", blank.arrayOf blank.optional.number)]
    let maybe := blank.object [("nums", blank.optional.arrayOf blank.number)]
    let withNumbers (v : Value) := ofProperties [("nums", v)]
    [accepts numbers (withNumbers (.array [ofInt 1, ofInt 2, ofInt 3])),
      accepts gaps (withNumbers (.array [ofInt 1, ofInt 2, .absent])),
      accepts gaps (withNumbers (.array [.absent])),
      accepts numbers (withNumbers (.array [])),
      rejects numbers (withNumbers .absent),
      rejects numbers (withNumbers (.array [.absent])),
      rejects numbers (ofProperties []),
      accepts maybe (ofProperties []),
      rejects maybe (withNumbers (.string "it exists, but not an array of numbers"))]

def objectsWithUnionProperties : Case where
  description := "objects with union properties"
  expectations :=
    let required := blank.object [("oneof", blank.oneOf [blank.string, blank.number])]
    let optional := blank.object [("oneof", blank.optional.oneOf [blank.string, blank.number])]
    [accepts required (ofProperties [("oneof", .string "string")]),
      accepts required (ofProperties [("oneof", ofInt 42)]),
      rejects required (ofProperties [("oneof", ofProperties [])]),
      rejects required (ofProperties []),
      accepts optional (ofProperties []),
      rejects optional (ofProperties [("oneof", .array [])])]

def ordinaryHobbies : Value := toValue ["eating", "coding", "sleeping"]

def personRecords : Case where
  description := "person records"
  expectations := [
    accepts personSchema <| ofProperties [
      ("name", .string "John Doe"), ("nickname", .string "johnny"),
      ("hometown", .string "Budapest"), ("age", ofInt 42)],
    accepts personSchema <| ofProperties [
      ("name", .string "John Doe"), ("hometown", .string "Budapest"), ("age", ofInt 42),
      ("hobbies", ordinaryHobbies)],
    accepts personSchema <| ofProperties [
      ("name", .string "John Doe"), ("hometown", .string "Budapest"), ("age", ofInt 42),
      ("hobbies", ordinaryHobbies), ("favoriteNumberOrColor", ofInt 42)],
    rejects personSchema <| ofProperties [
      ("name", .string "John Doe"), ("hometown", .string "Budapest"), ("age", ofInt 42),
      ("hobbies", ordinaryHobbies),
      ("favoriteNumberOrColor", toValue ["you", "dont", "tell", "me", "what", "to", "do"])],
    rejects personSchema <| ofProperties [
      ("name", .string "John Doe"), ("hometown", .string "Budapest"), ("age", ofInt 42),
      ("hobbies", toValue ["eating", "illegal activities", "sleeping"])],
    rejects personSchema <| ofProperties [
      ("name", .string "John Doe Jr."), ("hometown", .string "Budapest"), ("age", ofInt 2)],
    rejects personSchema <| ofProperties [("hometown", .string "Budapest"), ("age", ofInt 42)]]

def budapestCoordinates : Value :=
  .array [.number (.ofDecimal false 4749 2), .number (.ofDecimal false 1904 2)]

def locationRecords : Case where
  description := "location records"
  expectations := [
    accepts locationSchema <| ofProperties [
      ("name", .string "Budapest"), ("coordinates", budapestCoordinates),
      ("population", ofInt 1)],
    accepts locationSchema <| ofProperties [
      ("name", .string "Budapest"), ("coordinates", budapestCoordinates)],
    rejects locationSchema <| ofProperties [
      ("name", .string "Budapest"), ("population", ofInt 42)],
    rejects locationSchema <| ofProperties [
      ("coordinates", budapestCoordinates), ("population", ofInt 42)]]

def john : Value := ofProperties [
  ("name", .string "John Doe"), ("hometown", .string "Budapest"), ("age", ofInt 42),
  ("hobbies", ordinaryHobbies)]

def budapest : Value := ofProperties [
  ("name", .string "Budapest"), ("coordinates", budapestCoordinates), ("population", ofInt 1)]

def everything (people locations : List Value) : Value :=
  ofProperties [("people", .array people), ("locations", .array locations)]

def peopleAndLocations : Case where
  description := "people and locations cross-reference"
  expectations := [
    accepts everythingSchema (everything [john] [budapest]),
    rejects everythingSchema (everything [john] []),
    rejects everythingSchema <| everything [john] [ofProperties [
      ("name", .string "Not Budapest"), ("coordinates", budapestCoordinates),
      ("population", ofInt 1)]],
    accepts everythingSchema <| everything
      [ofProperties [
          ("name", .string "Johnny Bravo"), ("hometown", .string "Aron City"),
          ("age", ofInt 42), ("hobbies", toValue ["looking good", "flexing"])],
        john,
        ofProperties [
          ("name", .string "Ms. Janet Doe"), ("hometown", .string "Budapest"),
          ("age", ofInt 40), ("hobbies", ordinaryHobbies)]]
      [budapest,
        ofProperties [
          ("name", .string "Aron City"),
          ("coordinates", .array [.number (.ofDecimal false 3405 2), .number (.ofDecimal false 11824 2)])]],
    rejects everythingSchema (everything [john] [budapest, budapest])]

/-- All conformance cases. -/
def cases : List Case := [
  requiredByDefault,
  optionalsAcceptAbsent,
  kindsAcceptTheirOwnType,
  undeclaredKindsReject,
  refinementsConstrain,
  refinementsConjoin,
  arraysRejectNonArrays,
  arraysCheckEveryElement,
  arrayRefinementsCombine,
  optionalArrays,
  unionsAcceptAnyAlternative,
  optionalUnions,
  unionsWithOptionalAlternatives,
  arraysOfUnions,
  simpleObjects,
  objectsWithOptionalProperties,
  objectsWithArrayProperties,
  objectsWithUnionProperties,
  personRecords,
  locationRecords,
  peopleAndLocations]

end Conformance

end SchemaValidation
