import SchemaValidation.Schema.Basic
import SchemaValidation.SchemaError

/-!
# Positions in schemas

A position leads from a schema to one of its nodes, through properties, elements and alternatives.
Its path text starts at `$`; `.name` enters a property, `[]` the element and `|n` the alternative
with that number.

A node of no declared kind rejects whatever is present.  `Schema.collectUndeclared` finds such
nodes before any value is judged: it goes through the schema with the path so far and the paths it
has found.  `Schema.undeclared` lists the positions of the same nodes.
-/

namespace SchemaValidation

/-- One step from a node to a child. -/
inductive Step where
  | property (name : String)
  | element
  | alternative (index : Nat)
deriving DecidableEq, Repr

/-- The steps from the root to a node. -/
abbrev Position : Type := List Step

namespace Step

def text : Step → String
  | .property name => "." ++ name
  | .element => "[]"
  | .alternative index => "|" ++ toString index

end Step

namespace Position

def text (p : Position) : String := "$" ++ String.join (p.map Step.text)

end Position

namespace Schema

/-- The child that a step leads to. -/
def child? (s : Schema) (step : Step) : Option Schema :=
  match s.kind, step with
  | .object properties, .property name => properties.get? name
  | .array element, .element => some element
  | .union alternatives, .alternative index => alternatives[index]?
  | _, _ => none

/-- The node at a position. -/
def node? (s : Schema) : Position → Option Schema
  | [] => some s
  | step :: rest => (s.child? step).bind (node? · rest)

mutual

/-- The positions of the nodes of no declared kind, in order. -/
def undeclared : Schema → List Position
  | ⟨kind, _, _⟩ => undeclaredIn kind
termination_by structural s => s

def undeclaredIn : Kind Schema → List Position
  | .unset => [[]]
  | .string | .number | .boolean => []
  | .object properties => undeclaredProperties properties
  | .array element => element.undeclared.map (.element :: ·)
  | .union alternatives => undeclaredAlternatives 0 alternatives
termination_by structural kind => kind

def undeclaredProperties {floor : Option String} : Bindings Schema floor → List Position
  | .nil => []
  | .cons name _ child rest =>
    child.undeclared.map (.property name :: ·) ++ undeclaredProperties rest
termination_by structural properties => properties

/-- The alternatives are counted from `index`. -/
def undeclaredAlternatives (index : Nat) : List Schema → List Position
  | [] => []
  | s :: rest =>
    s.undeclared.map (.alternative index :: ·) ++ undeclaredAlternatives (index + 1) rest
termination_by structural alternatives => alternatives

end

mutual

/-- Add the paths of the nodes of no declared kind to those found before.  The node that the search
is at has the path `path`. -/
def collectUndeclared : Schema → String → Array String → Array String
  | ⟨kind, _, _⟩, path, paths => collectUndeclaredIn kind path paths
termination_by structural s => s

def collectUndeclaredIn : Kind Schema → String → Array String → Array String
  | .unset, path, paths => paths.push path
  | .string, _, paths | .number, _, paths | .boolean, _, paths => paths
  | .object properties, path, paths => collectUndeclaredProperties properties path paths
  | .array element, path, paths => element.collectUndeclared (path ++ "[]") paths
  | .union alternatives, path, paths => collectUndeclaredAlternatives 0 alternatives path paths
termination_by structural kind => kind

def collectUndeclaredProperties {floor : Option String} :
    Bindings Schema floor → String → Array String → Array String
  | .nil, _, paths => paths
  | .cons name _ child rest, path, paths =>
    collectUndeclaredProperties rest path (child.collectUndeclared (path ++ "." ++ name) paths)
termination_by structural properties => properties

/-- The alternatives are counted from `index`. -/
def collectUndeclaredAlternatives (index : Nat) :
    List Schema → String → Array String → Array String
  | [], _, paths => paths
  | s :: rest, path, paths =>
    collectUndeclaredAlternatives (index + 1) rest path
      (s.collectUndeclared (path ++ "|" ++ toString index) paths)
termination_by structural alternatives => alternatives

end

/-- The paths of the nodes of no declared kind. -/
def undeclaredPaths (s : Schema) : List String := (s.collectUndeclared "$" #[]).toList

/-- Refuse a schema with a node of no declared kind, naming the first. -/
def ensureDeclared (s : Schema) : Except SchemaError Unit :=
  match s.undeclaredPaths with
  | [] => .ok ()
  | path :: _ => .error (.undeclared path)

theorem undeclaredProperties_eq {floor : Option String} (properties : Bindings Schema floor) :
    undeclaredProperties properties = properties.toList.flatMap fun (name, child) =>
      child.undeclared.map (.property name :: ·) := by
  induction properties with
  | nil => rfl
  | cons name follows child rest ih =>
    rw [undeclaredProperties, ih, Bindings.toList_cons, List.flatMap_cons]

theorem undeclaredAlternatives_eq (index : Nat) (alternatives : List Schema) :
    undeclaredAlternatives index alternatives = (alternatives.zipIdx index).flatMap fun (s, i) =>
      s.undeclared.map (.alternative i :: ·) := by
  induction alternatives generalizing index with
  | nil => rfl
  | cons s rest ih => rw [undeclaredAlternatives, ih, List.zipIdx_cons, List.flatMap_cons]

theorem collectUndeclaredProperties_eq {floor : Option String} (properties : Bindings Schema floor)
    (path : String) (paths : Array String) :
    collectUndeclaredProperties properties path paths =
      properties.toList.foldl
        (fun paths binding => binding.2.collectUndeclared (path ++ "." ++ binding.1) paths)
        paths := by
  induction properties generalizing paths with
  | nil => rfl
  | cons name follows child rest ih =>
    rw [collectUndeclaredProperties, ih, Bindings.toList_cons, List.foldl_cons]

theorem collectUndeclaredAlternatives_eq (index : Nat) (alternatives : List Schema) (path : String)
    (paths : Array String) :
    collectUndeclaredAlternatives index alternatives path paths =
      (alternatives.zipIdx index).foldl
        (fun paths entry => entry.1.collectUndeclared (path ++ "|" ++ toString entry.2) paths)
        paths := by
  induction alternatives generalizing index paths with
  | nil => rfl
  | cons s rest ih => rw [collectUndeclaredAlternatives, ih, List.zipIdx_cons, List.foldl_cons]

end Schema

end SchemaValidation
