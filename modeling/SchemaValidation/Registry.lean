import SchemaValidation.Schema.Position
import SchemaValidation.Schema.Validate
import Std.Data.ExtTreeMap

/-!
# Registries

A registry keeps schemas under names and judges values by name.  Its configuration says how strict
it is, and never changes.  The schemas are kept in a search tree, in order of name, and two
registries are equal if they have the same configuration and the same bindings.

Schemas are registered in place (`Registry.Update`): a registration takes a registry and leaves one
behind, also when it fails.
-/

namespace SchemaValidation

namespace Registry

structure Config where
  /-- Refuse to judge under a name that is not registered, rather than accept. -/
  failOnMissing : Bool := false
  /-- Refuse schemas with nodes of no declared kind. -/
  rejectUndeclared : Bool := false
  /-- Let a registered schema give way to another. -/
  allowReplace : Bool := false
  /-- How many schemas may be registered. -/
  maxSchemas : Nat := 256
deriving DecidableEq, Repr

end Registry

structure Registry where
  config : Registry.Config
  schemas : Std.ExtTreeMap String Schema

namespace Registry

def empty (config : Config) : Registry := ⟨config, ∅⟩

def get? (r : Registry) (name : String) : Option Schema := r.schemas[name]?

def contains (r : Registry) (name : String) : Bool := r.schemas.contains name

/-- The registered names in order. -/
def names (r : Registry) : List String := r.schemas.keys

def size (r : Registry) : Nat := r.schemas.size

def isEmpty (r : Registry) : Bool := r.schemas.isEmpty

/-- Bind a name to a schema. -/
def insert (r : Registry) (name : String) (s : Schema) : Registry :=
  { r with schemas := r.schemas.insert name s }

/-- A change of a registry in place, which may report events and may fail.  What it has changed
before it fails stays changed. -/
abbrev Update : Type → Type := ExceptT SchemaError (StateT Registry Traced)

namespace Update

/-- What comes of an update, and the registry that it leaves behind. -/
def run {α : Type} (u : Update α) (r : Registry) : Traced (Except SchemaError α × Registry) :=
  StateT.run (ExceptT.run u) r

section

variable {α β : Type} {r left : Registry} {u : Update α} {k : α → Update β}

theorem run_get_bind (r : Registry) (k : Registry → Update α) : run (get >>= k) r = run (k r) r :=
  Traced.ext rfl (Traced.andThen_eq [] _)

theorem result_run_bind_of_ok {a : α} (h : (run u r).result = (.ok a, left)) :
    (run (u >>= k) r).result = (run (k a) left).result := by
  rw [run] at h
  rw [run, ExceptT.run_bind, StateT.run_bind, Traced.result_bind, h]
  rfl

theorem result_run_bind_of_error {e : SchemaError} (h : (run u r).result = (.error e, left)) :
    (run (u >>= k) r).result = (.error e, left) := by
  rw [run] at h
  rw [run, ExceptT.run_bind, StateT.run_bind, Traced.result_bind, h]
  rfl

end

/-- Register a schema under a name. -/
def register (name : String) (s : Schema) : Update Unit := do
  let r ← get
  if r.config.rejectUndeclared then s.ensureDeclared
  if r.contains name then
    unless r.config.allowReplace do throw (.alreadyRegistered name)
    Traced.emit (.replaced name)
  else
    if r.config.maxSchemas ≤ r.size then throw (.limitExceeded r.config.maxSchemas)
    Traced.emit (.registered name s.kind.name)
  modify (·.insert name s)

/-- Register schemas in order, up to the first that is refused. -/
def registerAll (entries : List (String × Schema)) : Update Unit :=
  forM entries fun (name, s) => register name s

end Update

/-- The registry that an update leaves behind, unless it fails. -/
def update (r : Registry) (u : Update Unit) : Traced (Except SchemaError Registry) :=
  (fun (result, left) => result.map fun _ => left) <$> u.run r

/-- The registry with a further schema, unless it is refused. -/
def register (r : Registry) (name : String) (s : Schema) : Traced (Except SchemaError Registry) :=
  r.update (.register name s)

/-- The registry of some schemas, registered in order. -/
def ofEntries (config : Config) (entries : List (String × Schema)) :
    Traced (Except SchemaError Registry) :=
  (empty config).update (.registerAll entries)

/-- Judge a value by the schema of that name. -/
def validate (r : Registry) (name : String) (v : Value) : Traced (Except SchemaError Bool) :=
  match r.get? name with
  | some s => .ok <$> s.validate v
  | none =>
    if r.config.failOnMissing then return .error (.noSchema name)
    else ⟨.ok true, [.unknownName name]⟩

/-- Refuse a value that the schema of that name does not accept. -/
def ensure (r : Registry) (name : String) (v : Value) : Traced (Except SchemaError Unit) :=
  (fun
    | .ok true => .ok ()
    | .ok false => .error (.rejected name)
    | .error e => .error e) <$> r.validate name v

end Registry

end SchemaValidation
