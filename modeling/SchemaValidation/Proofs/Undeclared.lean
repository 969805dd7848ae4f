import SchemaValidation.Proofs.ByteOrder
import SchemaValidation.Proofs.Nodes
import SchemaValidation.Proofs.Search
import Mathlib.Data.List.Sort

/-!
# Undeclared nodes

`Schema.undeclared` lists the positions of the nodes of no declared kind.  It lists all of them and
nothing else (`mem_undeclared_iff`), each once and in lexicographic order (`pairwise_undeclared`):
names by their bytes, alternatives by their numbers.

Both are one induction over the schema.  The steps from a node are strictly increasing
(`Kind.pairwise_steps`), so whatever is listed below one of them comes before what is listed below
the next.  A list in strict order is determined by its elements, and therefore nothing but the kinds
of the nodes has a say in it.

The search for undeclared nodes knows paths and no positions.  What it adds to the paths found
before is the texts of the listed positions (`toList_collectUndeclared`), so all of this holds of
the paths as well.
-/

namespace SchemaValidation

namespace Step

/-- Steps from one node are taken in order of name, byte by byte, or of number. -/
def Precedes : Step → Step → Prop
  | .property m, .property n => utf8 m < utf8 n
  | .alternative i, .alternative j => i < j
  | _, _ => False

/-- Positions are lists of steps, and so they are ordered lexicographically. -/
instance : LT Step := ⟨Precedes⟩

theorem lt_asymm {a b : Step} (h : a < b) : ¬b < a := by
  cases a with
  | property m =>
    cases b with
    | property n => exact List.lt_asymm h
    | element | alternative => exact h.elim
  | element => exact h.elim
  | alternative i =>
    cases b with
    | alternative j => exact Nat.lt_asymm h
    | property | element => exact h.elim

instance : Std.Asymm (α := Step) (· < ·) := ⟨fun _ _ => lt_asymm⟩

end Step

namespace Position

/-- The path of a position below a node with this path. -/
def textBelow (path : String) (p : Position) : String := path ++ String.join (p.map Step.text)

theorem textBelow_cons (path : String) (step : Step) (rest : Position) :
    textBelow path (step :: rest) = textBelow (path ++ step.text) rest := by
  rw [textBelow, List.map_cons, String.join_cons, ← String.append_assoc]
  rfl

end Position

/-- What is put together by steps that each add something at the end. -/
theorem toList_foldl_of_append {α β : Type} {f : Array β → α → Array β} {g : α → List β}
    {as : List α} (adds : ∀ a ∈ as, ∀ bs, (f bs a).toList = bs.toList ++ g a) (bs : Array β) :
    (as.foldl f bs).toList = bs.toList ++ as.flatMap g := by
  induction as generalizing bs with
  | nil => simp
  | cons a as ih =>
    rw [List.foldl_cons, ih fun a mem => adds a (.tail _ mem), adds a List.mem_cons_self,
      List.flatMap_cons, List.append_assoc]

namespace Kind

variable {σ : Type}

theorem name_eq_unset_iff {k : Kind σ} : k.name = .unset ↔ k = .unset := by
  cases k <;> simp [name]

/-- The steps from a node in order, with the children that they lead to. -/
def steps : Kind σ → List (Step × σ)
  | .object properties => properties.toList.map fun (name, child) => (.property name, child)
  | .array element => [(.element, element)]
  | .union alternatives => alternatives.zipIdx.map fun (child, index) => (.alternative index, child)
  | _ => []

theorem pairwise_steps (k : Kind σ) : k.steps.Pairwise fun a b => a.1 < b.1 := by
  cases k with
  | unset | string | number | boolean => exact .nil
  | object properties =>
    have names : properties.toList.Pairwise fun a b => a.1 < b.1 :=
      List.pairwise_map.mp properties.pairwise_names
    rw [steps, List.pairwise_map]
    exact names.imp utf8_lt_iff.mpr
  | array element => exact List.pairwise_singleton _ _
  | union alternatives =>
    rw [steps, List.pairwise_map]
    exact pairwise_zipIdx alternatives

theorem mem_children_of_mem_steps (k : Kind σ) {step : Step} {c : σ} (h : (step, c) ∈ k.steps) :
    c ∈ k.children := by
  cases k with
  | unset | string | number | boolean => cases h
  | object properties =>
    obtain ⟨binding, mem, eq⟩ := List.mem_map.mp h
    cases eq
    exact List.mem_map_of_mem mem
  | array element =>
    exact List.mem_singleton.mpr (congrArg Prod.snd (List.mem_singleton.mp h))
  | union alternatives =>
    obtain ⟨_, mem, eq⟩ := List.mem_map.mp h
    cases eq
    exact List.fst_mem_of_mem_zipIdx mem

end Kind

namespace Schema

/-- The node at the position has no declared kind. -/
def UndeclaredAt (s : Schema) (p : Position) : Prop :=
  ∃ node, s.node? p = some node ∧ node.kind = .unset

/-- The schemas have the same positions, with nodes of the same kinds.  Flags and refinements may
differ at all of them. -/
def SameKinds (s t : Schema) : Prop :=
  ∀ p, (s.node? p).map (·.kind.name) = (t.node? p).map (·.kind.name)

variable {s : Schema}

theorem mem_steps_iff {step : Step} {c : Schema} :
    (step, c) ∈ s.kind.steps ↔ s.child? step = some c := by
  obtain ⟨kind, required, refinements⟩ := s
  cases kind with
  | unset | string | number | boolean => simp [Kind.steps, child?]
  | object properties =>
    cases step <;> simp [Kind.steps, child?, Bindings.mem_toList_iff]
  | array element => cases step <;> simp [Kind.steps, child?, eq_comm]
  | union alternatives =>
    cases step <;> simp [Kind.steps, child?, List.mem_zipIdx_iff_getElem?]

theorem undeclared_eq (s : Schema) : s.undeclared =
    (if s.kind.name = .unset then [[]] else []) ++
      s.kind.steps.flatMap fun (step, child) => child.undeclared.map (step :: ·) := by
  obtain ⟨kind, required, refinements⟩ := s
  rw [undeclared]
  cases kind with
  | unset | string | number | boolean => rfl
  | object properties =>
    rw [undeclaredIn, undeclaredProperties_eq]
    simp [Kind.steps, Kind.name, List.flatMap_map]
  | array element => simp [undeclaredIn, Kind.steps, Kind.name]
  | union alternatives =>
    rw [undeclaredIn, undeclaredAlternatives_eq]
    simp [Kind.steps, Kind.name, List.flatMap_map]

/-! ## The search for undeclared nodes -/

/-- The search takes the steps in order, and a step adds its text to the path. -/
theorem collectUndeclared_eq (s : Schema) (path : String) (paths : Array String) :
    s.collectUndeclared path paths = s.kind.steps.foldl
      (fun paths entry => entry.2.collectUndeclared (path ++ entry.1.text) paths)
      (if s.kind.name = .unset then paths.push path else paths) := by
  obtain ⟨kind, required, refinements⟩ := s
  rw [collectUndeclared]
  cases kind with
  | unset | string | number | boolean => rfl
  | object properties =>
    rw [collectUndeclaredIn, collectUndeclaredProperties_eq]
    simp [Kind.steps, Kind.name, Step.text, List.foldl_map, String.append_assoc]
  | array element => simp [collectUndeclaredIn, Kind.steps, Kind.name, Step.text]
  | union alternatives =>
    rw [collectUndeclaredIn, collectUndeclaredAlternatives_eq]
    simp [Kind.steps, Kind.name, Step.text, List.foldl_map, String.append_assoc]

/-- What the search adds to the paths is the texts of the listed positions. -/
theorem toList_collectUndeclared (s : Schema) (path : String) (paths : Array String) :
    (s.collectUndeclared path paths).toList =
      paths.toList ++ s.undeclared.map (Position.textBelow path) := by
  induction s using Schema.induction generalizing path paths with
  | node kind required refinements ih =>
    -- the children are searched one after another, each below its own path
    have below (step : Step) (c : Schema) (hc : (step, c) ∈ kind.steps) (paths : Array String) :
        (c.collectUndeclared (path ++ step.text) paths).toList =
          paths.toList ++ (c.undeclared.map (step :: ·)).map (Position.textBelow path) := by
      rw [ih c (kind.mem_children_of_mem_steps hc), List.map_map]
      simp only [Function.comp_def, Position.textBelow_cons]
    rw [collectUndeclared_eq, undeclared_eq, toList_foldl_of_append fun entry mem =>
      below entry.1 entry.2 mem, List.map_append, List.map_flatMap, ← List.append_assoc]
    congr 1
    split <;> simp [Position.textBelow]

/-- The paths are the texts of the listed positions. -/
theorem undeclaredPaths_eq (s : Schema) : s.undeclaredPaths = s.undeclared.map Position.text :=
  s.toList_collectUndeclared "$" #[]

/-! ## The positions of undeclared nodes -/

theorem undeclaredAt_nil : s.UndeclaredAt [] ↔ s.kind = .unset := by
  simp [UndeclaredAt, node?]

theorem undeclaredAt_cons {step : Step} {rest : Position} :
    s.UndeclaredAt (step :: rest) ↔ ∃ c, s.child? step = some c ∧ c.UndeclaredAt rest := by
  constructor
  · rintro ⟨node, found, unset⟩
    obtain ⟨c, hc, found⟩ := Option.bind_eq_some_iff.mp found
    exact ⟨c, hc, node, found, unset⟩
  · rintro ⟨c, hc, node, found, unset⟩
    exact ⟨node, Option.bind_eq_some_iff.mpr ⟨c, hc, found⟩, unset⟩

/-- The list has the positions of the undeclared nodes, and no others. -/
theorem mem_undeclared_iff {p : Position} : p ∈ s.undeclared ↔ s.UndeclaredAt p := by
  induction s using Schema.induction generalizing p with
  | node kind required refinements ih =>
    have below {step : Step} {c : Schema} {rest : Position}
        (hc : (⟨kind, required, refinements⟩ : Schema).child? step = some c) :
        rest ∈ c.undeclared ↔ c.UndeclaredAt rest :=
      ih c (mem_children_iff.mpr ⟨step, hc⟩)
    rw [undeclared_eq, List.mem_append, List.mem_flatMap]
    cases p with
    | nil => simp [undeclaredAt_nil, Kind.name_eq_unset_iff]
    | cons step rest =>
      rw [undeclaredAt_cons]
      constructor
      · rintro (mem | ⟨⟨step', c⟩, hc, mem⟩)
        · split at mem <;> simp at mem
        · obtain ⟨rest', mem, eq⟩ := List.mem_map.mp mem
          cases eq
          exact ⟨c, mem_steps_iff.mp hc, (below (mem_steps_iff.mp hc)).mp mem⟩
      · rintro ⟨c, hc, undeclared⟩
        exact .inr ⟨(step, c), mem_steps_iff.mpr hc,
          List.mem_map_of_mem ((below hc).mpr undeclared)⟩

/-- The list is in strict order. -/
theorem pairwise_undeclared (s : Schema) : s.undeclared.Pairwise (· < ·) := by
  induction s using Schema.induction with
  | node kind required refinements ih =>
    by_cases unset : kind.name = .unset
    · -- an undeclared node has no steps, so it is listed alone
      cases kind with
      | unset => exact List.pairwise_singleton _ _
      | _ => cases unset
    · rw [undeclared_eq, if_neg unset, List.nil_append, List.pairwise_flatMap]
      constructor
      · rintro ⟨step, c⟩ hc
        rw [List.pairwise_map]
        exact (ih c (kind.mem_children_of_mem_steps hc)).imp fun lt => List.Lex.cons lt
      · refine kind.pairwise_steps.imp ?_
        rintro ⟨step, c⟩ ⟨step', c'⟩ lt p hp q hq
        obtain ⟨p, -, rfl⟩ := List.mem_map.mp hp
        obtain ⟨q, -, rfl⟩ := List.mem_map.mp hq
        exact List.Lex.rel lt

theorem SameKinds.undeclaredAt_iff {t : Schema} (h : s.SameKinds t) (p : Position) :
    t.UndeclaredAt p ↔ s.UndeclaredAt p := by
  have kinds := h p
  simp only [UndeclaredAt, ← Kind.name_eq_unset_iff]
  cases hs : s.node? p <;> cases ht : t.node? p <;> simp_all

/-- A list in strict order is determined by its elements, and these by the kinds. -/
theorem SameKinds.undeclared_eq {t : Schema} (h : s.SameKinds t) : t.undeclared = s.undeclared := by
  refine t.pairwise_undeclared.eq_of_mem_iff s.pairwise_undeclared fun p => ?_
  rw [mem_undeclared_iff, mem_undeclared_iff, h.undeclaredAt_iff]

theorem undeclared_eq_nil_iff : s.undeclared = [] ↔ ∀ p, ¬s.UndeclaredAt p := by
  simp only [List.eq_nil_iff_forall_not_mem, mem_undeclared_iff]

theorem ensureDeclared_eq_ok_iff : s.ensureDeclared = .ok () ↔ ∀ p, ¬s.UndeclaredAt p := by
  rw [← undeclared_eq_nil_iff, ensureDeclared, undeclaredPaths_eq]
  cases s.undeclared <;> simp

theorem ensureDeclared_eq_ok_iff_undeclaredPaths :
    s.ensureDeclared = .ok () ↔ s.undeclaredPaths = [] := by
  rw [ensureDeclared]
  cases s.undeclaredPaths <;> simp

/-- A schema is refused for the first of its paths. -/
theorem ensureDeclared_eq_error_iff {e : SchemaError} :
    s.ensureDeclared = .error e ↔ ∃ path, s.undeclaredPaths.head? = some path ∧
      e = .undeclared path := by
  rw [ensureDeclared]
  cases s.undeclaredPaths <;> simp [eq_comm]

theorem ensureDeclared_eq_ok_iff_everywhere :
    s.ensureDeclared = .ok () ↔ s.Everywhere fun t => t.kind ≠ .unset := by
  rw [ensureDeclared_eq_ok_iff]
  exact ⟨fun h p node found unset => h p ⟨node, found, unset⟩,
    fun h p ⟨node, found, unset⟩ => h p node found unset⟩

/-- The first of the list is the least. -/
theorem exists_least_undeclared (h : ∃ p, s.UndeclaredAt p) :
    ∃ p, s.UndeclaredAt p ∧ (∀ q, s.UndeclaredAt q → q = p ∨ p < q) ∧
      s.ensureDeclared = .error (.undeclared p.text) := by
  cases list : s.undeclared with
  | nil =>
    obtain ⟨p, undeclared⟩ := h
    exact (undeclared_eq_nil_iff.mp list p undeclared).elim
  | cons p rest =>
    have least := (List.pairwise_cons.mp (list ▸ s.pairwise_undeclared)).1
    refine ⟨p, mem_undeclared_iff.mp (by simp [list]), fun q hq => ?_, ?_⟩
    · rcases List.mem_cons.mp (list ▸ mem_undeclared_iff.mpr hq) with rfl | mem
      · exact .inl rfl
      · exact .inr (least q mem)
    · rw [ensureDeclared, undeclaredPaths_eq, list]
      rfl

theorem mem_undeclaredPaths_iff {path : String} :
    path ∈ s.undeclaredPaths ↔ ∃ p, s.UndeclaredAt p ∧ p.text = path := by
  simp only [undeclaredPaths_eq, List.mem_map, mem_undeclared_iff]

/-- The paths are those of all undeclared nodes, each node once and in order of their positions,
whatever the flags and refinements are.  A schema is declared if there is no such node, and is
otherwise refused for the least of their positions. -/
theorem undeclaredPaths_exact (s : Schema) :
    (∃ positions : List Position, s.undeclaredPaths = positions.map Position.text ∧
      (∀ p, p ∈ positions ↔ s.UndeclaredAt p) ∧ positions.Nodup ∧ positions.Pairwise (· < ·)) ∧
    (∀ t, s.SameKinds t → t.undeclaredPaths = s.undeclaredPaths) ∧
    (s.ensureDeclared = .ok () ↔ ∀ p, ¬s.UndeclaredAt p) ∧
    ((∃ p, s.UndeclaredAt p) → ∃ p, s.UndeclaredAt p ∧ (∀ q, s.UndeclaredAt q → q = p ∨ p < q) ∧
      s.ensureDeclared = .error (.undeclared p.text)) := by
  refine ⟨⟨s.undeclared, s.undeclaredPaths_eq, fun p => mem_undeclared_iff, ?_,
    s.pairwise_undeclared⟩, fun t same => ?_, ensureDeclared_eq_ok_iff, exists_least_undeclared⟩
  · exact s.pairwise_undeclared.imp fun lt => ne_of_irrefl lt
  · rw [undeclaredPaths_eq, undeclaredPaths_eq, same.undeclared_eq]

/-- An optional array of elements that no kind is declared for, with a refinement or without. -/
theorem undeclaredPaths_exact_arrayOf :
    (blank.arrayOf blank).SameKinds
      (blank.optional.arrayOf (blank.optional.which fun _ => pure false)) ∧
    (blank.optional.arrayOf (blank.optional.which fun _ => pure false)).undeclaredPaths =
      (blank.arrayOf blank).undeclaredPaths ∧
    (blank.arrayOf blank).UndeclaredAt [.element] ∧
    ∃ p, (blank.arrayOf blank).UndeclaredAt p ∧
      (∀ q, (blank.arrayOf blank).UndeclaredAt q → q = p ∨ p < q) ∧
      (blank.arrayOf blank).ensureDeclared = .error (.undeclared p.text) := by
  have same : (blank.arrayOf blank).SameKinds
      (blank.optional.arrayOf (blank.optional.which fun _ => pure false)) := by
    intro p
    rcases p with _ | ⟨_ | _ | _, _ | ⟨_, _⟩⟩ <;> rfl
  have undeclared : (blank.arrayOf blank).UndeclaredAt [.element] := ⟨blank, rfl, rfl⟩
  obtain ⟨-, flags, -, least⟩ := undeclaredPaths_exact (blank.arrayOf blank)
  exact ⟨same, flags _ same, undeclared, least ⟨_, undeclared⟩⟩

example : (blank.object [("pick", blank.oneOf [blank.string, blank]),
    ("list", blank.arrayOf blank)]).undeclaredPaths = ["$.list[]", "$.pick|1"] := by decide

end Schema

end SchemaValidation
