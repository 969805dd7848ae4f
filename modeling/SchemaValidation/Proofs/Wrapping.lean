import SchemaValidation.Proofs.Acceptance
import SchemaValidation.Proofs.Search
import SchemaValidation.Schema.Wrapper

/-!
# Wrapping

A layer around a schema and its value passes the verdict on.  A rejection it reports, after what was
reported inside, and an acceptance it leaves as it is (`Wrapper.validate_schema`).  Any number of
layers therefore adds nothing to the events of an accepted value, and to those of a rejected one a
report for each layer, from the inside out.

An absent value stays absent in unions, and then the next layer hides it: an array or an object that
holds it is present.  So what a layer reports depends on the layers within, and `Wrapper.rejections`
carries the value along.
-/

namespace SchemaValidation

namespace Traced

theorem both_pure_true (x : Traced Bool) : both x (pure true) = x :=
  Traced.ext (by simp) (by simp)

theorem either_pure_false (x : Traced Bool) : either x (pure false) = x :=
  Traced.ext (by simp) (by simp)

variable {α : Type} (p : α → Traced Bool) (a : α)

theorem allM_singleton : [a].allM p = p a := by
  rw [allM_cons]
  exact both_pure_true (p a)

theorem anyM_singleton : [a].anyM p = p a := by
  rw [anyM_cons]
  exact either_pure_false (p a)

end Traced

/-- Without refinements only the type check is left. -/
theorem Schema.validate_of_plain {s : Schema} {v : Value} (plain : s.refinements = [])
    (unsettled : ¬s.Settles v) :
    s.validate v = (fits s.kind s.required v).onReject (.typeRejected s.kind.name v.typeName) := by
  rw [validate_of_not_settles unsettled, plain]
  exact Traced.both_pure_true _

namespace Wrapper

/-- The kind of the layer around a schema. -/
def kindName : Wrapper → KindName
  | .element _ => .array
  | .property _ => .object
  | .alternative => .union

/-- Layers around a schema, the first of them innermost. -/
def schemaAll (layers : List Wrapper) (s : Schema) : Schema :=
  layers.foldl (fun s layer => layer.schema s) s

/-- Layers around a value, the first of them innermost. -/
def valueAll (layers : List Wrapper) (v : Value) : Value :=
  layers.foldl (fun v layer => layer.value v) v

/-- What layers around a rejected value report, from the inside out. -/
def rejections : List Wrapper → Value → List Event
  | [], _ => []
  | layer :: outer, v =>
    .typeRejected layer.kindName (layer.value v).typeName :: rejections outer (layer.value v)

variable (layer : Wrapper) (s : Schema) (v : Value)

theorem name_schema : (layer.schema s).kind.name = layer.kindName := by
  rcases layer with (_ | _) | _ | _ <;> rfl

theorem refinements_schema : (layer.schema s).refinements = [] := by
  rcases layer with (_ | _) | _ | _ <;> rfl

/-- Where the value is absent still, the layer is a union. -/
theorem not_settles : ¬(layer.schema s).Settles (layer.value v) := by
  cases layer with
  | element | property => exact Schema.not_settles_of_ne_absent nofun
  | alternative => exact Schema.not_settles_of_handles rfl

/-- The layer holds one part, and that is the value inside. -/
theorem fits_schema : Schema.fits (layer.schema s).kind (layer.schema s).required (layer.value v) =
    s.validate v := by
  cases layer with
  | element required =>
    have kind : ((element required).schema s).kind = .array s := by cases required <;> rfl
    rw [kind, value, Schema.fits_array, Traced.allM_singleton]
  | property name =>
    have properties : (NameMap.ofList [(name, s)]).toList = [(name, s)] := rfl
    have found : (Value.ofProperties [(name, v)]).get name = v := by
      simp [Value.ofProperties, NameMap.get?_ofList_cons]
    have type : (Value.ofProperties [(name, v)]).typeName = .object := rfl
    show Schema.fits (.object (NameMap.ofList [(name, s)])) true (.ofProperties [(name, v)]) = _
    rw [Schema.fits_object _ _ _ (.inl type), properties, Traced.allM_singleton]
    exact congrArg s.validate found
  | alternative =>
    show Schema.fits (.union [s]) true v = _
    rw [Schema.fits_union, Bool.not_true, Bool.false_and, if_neg Bool.false_ne_true]
    exact Traced.anyM_singleton _ s

/-- A layer passes the verdict on, and reports a rejection. -/
theorem validate_schema : (layer.schema s).validate (layer.value v) =
    (s.validate v).onReject (.typeRejected layer.kindName (layer.value v).typeName) := by
  rw [Schema.validate_of_plain (layer.refinements_schema s) (layer.not_settles s v), fits_schema,
    name_schema]

end Wrapper

/-- However many layers a schema and its value are wrapped in, the verdict is the same.  If the value
is rejected, every layer reports it once, from the inside out, and nothing else is added. -/
theorem Schema.validate_schemaAll (s : Schema) (v : Value) (layers : List Wrapper) :
    ((Wrapper.schemaAll layers s).validate (Wrapper.valueAll layers v)).result =
        (s.validate v).result ∧
      ((Wrapper.schemaAll layers s).validate (Wrapper.valueAll layers v)).events =
        (s.validate v).events ++
          if (s.validate v).result then [] else Wrapper.rejections layers v := by
  induction layers generalizing s v with
  | nil => simp [Wrapper.schemaAll, Wrapper.valueAll, Wrapper.rejections]
  | cons layer outer ih =>
    obtain ⟨result, events⟩ := ih (layer.schema s) (layer.value v)
    rw [Wrapper.validate_schema, Traced.result_onReject] at result events
    refine ⟨result, events.trans ?_⟩
    rw [Traced.events_onReject, List.append_assoc]
    cases (s.validate v).result <;> rfl

/-- The union leaves absence to the string, which is silent about it, and the array has an element. -/
example : ((Wrapper.schemaAll [.alternative, .element false, .property "tags"]
    Schema.blank.string).validate (Wrapper.valueAll
      [.alternative, .element false, .property "tags"] .absent)).events =
      [.typeRejected .union .absent, .typeRejected .array .array,
        .typeRejected .object .object] := by decide

end SchemaValidation
