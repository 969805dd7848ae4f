import SchemaValidation.Schema.Basic

/-!
# Evaluation of schemas

`Schema.validate` decides whether a schema accepts a value.  Evaluation is depth first and stops at
the first decision: properties by name, elements and alternatives in order, and the refinements of
a node after its type check, in order.

A node that rejects a value reports it, after whatever its children reported.  The exception is an
absent value at a node that leaves absence to its `required` flag; that is settled at once and in
silence.

Properties are looked up with `Value.get`, so an array counts as an object without properties, and
null as an object only where no property is declared.
-/

namespace SchemaValidation

namespace Schema

/-- The refinements of a node hold, tried in order up to the first that does not. -/
def refinementsHold (kind : KindName) (refinements : List Predicate) (v : Value) : Traced Bool :=
  refinements.zipIdx.allM fun (p, index) => (p v).onReject (.refinementRejected kind index)

mutual

/-- Whether the schema accepts the value. -/
def validate : Schema → Value → Traced Bool
  | ⟨kind, required, refinements⟩, v =>
    if v.isAbsent && !kind.handlesAbsence then return !required
    else ((fits kind required v).onReject (.typeRejected kind.name v.typeName)).both
      (refinementsHold kind.name refinements v)
termination_by structural s => s

/-- The type check: whether the value is of the kind, and its parts are accepted. -/
def fits : Kind Schema → Bool → Value → Traced Bool
  | .unset, _, _ => return false
  | .string, _, v => return v.typeName = .string
  | .number, _, v => return v.typeName = .number
  | .boolean, _, v => return v.typeName = .boolean
  | .object properties, _, v =>
    match v.typeName with
    | .object | .array => validateProperties properties v
    | .null => return properties.isEmpty
    | _ => return false
  | .array element, required, v =>
    match v with
    | .array items => items.allM fun item => validate element item
    | v => return !required && v.isAbsent
  | .union alternatives, required, v =>
    if !required && v.isAbsent then return true else validateAny alternatives v
termination_by structural kind => kind

/-- Every property of the value is accepted by the schema declared for it. -/
def validateProperties {floor : Option String} : Bindings Schema floor → Value → Traced Bool
  | .nil, _ => return true
  | .cons name _ child rest, v =>
    (validate child (v.get name)).both (validateProperties rest v)
termination_by structural properties => properties

/-- Some alternative accepts the value. -/
def validateAny : List Schema → Value → Traced Bool
  | [], _ => return false
  | alternative :: rest, v => (validate alternative v).either (validateAny rest v)
termination_by structural alternatives => alternatives

end

/-- Whether the schema accepts the value, events aside. -/
def accepts (s : Schema) (v : Value) : Bool := (s.validate v).result

theorem validate_eq (s : Schema) (v : Value) : s.validate v =
    if v.isAbsent && !s.kind.handlesAbsence then pure !s.required
    else ((fits s.kind s.required v).onReject (.typeRejected s.kind.name v.typeName)).both
      (refinementsHold s.kind.name s.refinements v) := by
  cases s
  rw [validate]

theorem validateProperties_eq {floor : Option String} (properties : Bindings Schema floor)
    (v : Value) : validateProperties properties v =
      properties.toList.allM fun (name, child) => child.validate (v.get name) := by
  induction properties with
  | nil => rfl
  | cons name follows child rest ih =>
    rw [validateProperties, ih, Bindings.toList_cons, Traced.allM_cons]

theorem validateAny_eq (alternatives : List Schema) (v : Value) :
    validateAny alternatives v = alternatives.anyM fun alternative => alternative.validate v := by
  induction alternatives with
  | nil => rfl
  | cons alternative rest ih => rw [validateAny, ih, Traced.anyM_cons]

theorem fits_object (properties : NameMap Schema) (required : Bool) (v : Value)
    (h : v.typeName = .object ∨ v.typeName = .array) : fits (.object properties) required v =
      properties.toList.allM fun (name, child) => child.validate (v.get name) := by
  rw [fits, ← validateProperties_eq]
  rcases h with h | h <;> simp only [h]

theorem fits_array (element : Schema) (required : Bool) (items : List Value) :
    fits (.array element) required (.array items) = items.allM element.validate := by
  rw [fits]

theorem fits_union (alternatives : List Schema) (required : Bool) (v : Value) :
    fits (.union alternatives) required v =
      if !required && v.isAbsent then pure true
      else alternatives.anyM fun alternative => alternative.validate v := by
  rw [fits, validateAny_eq]

end Schema

end SchemaValidation
