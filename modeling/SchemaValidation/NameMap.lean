/-!
# Maps from names

`NameMap α` binds names to items, each name at most once, and holds its bindings in strictly
increasing order of name.  The order is that of `String`: by code point, which is also the order
of the UTF-8 bytes.

The order is part of the type.  `Bindings α floor` is a sequence of bindings whose names increase
and lie above `floor`, so a map is never out of order and needs no separate proof that it is
sorted.  `Bindings` is an inductive family, and may therefore hold the children of a recursive
type.

* `NameMap.get?_insertNew`: inserting binds a name that was free and leaves the others alone;
* `NameMap.get?_ofList_cons`: in a map of some bindings, the later of two for one name counts;
* `Bindings.toList_injective`: a map is determined by its list of bindings.
-/

namespace SchemaValidation

/-- A name may come next in an increasing sequence that has reached `floor`. -/
def Follows (floor : Option String) (name : String) : Prop := ∀ last ∈ floor, last < name

theorem Follows.start (name : String) : Follows none name := nofun

theorem Follows.of_lt {last name : String} (h : last < name) : Follows (some last) name := by
  simpa [Follows] using h

theorem Follows.lt {last name : String} (h : Follows (some last) name) : last < name := h last rfl

theorem Follows.trans {floor : Option String} {last name : String} (h : Follows floor last)
    (h' : last < name) : Follows floor name :=
  fun l hl => String.lt_trans (h l hl) h'

/-- Bindings of names above `floor`, in strictly increasing order of name. -/
inductive Bindings (α : Type) : Option String → Type
  | nil {floor : Option String} : Bindings α floor
  | cons {floor : Option String} (name : String) (follows : Follows floor name) (item : α)
      (rest : Bindings α (some name)) : Bindings α floor

/-- A map from names to items, in order of name. -/
abbrev NameMap (α : Type) : Type := Bindings α none

namespace Bindings

variable {α β : Type} {floor : Option String}

/-- The bindings as pairs, in order of name. -/
def toList {floor : Option String} : Bindings α floor → List (String × α)
  | .nil => []
  | .cons name _ item rest => (name, item) :: rest.toList

def names (m : Bindings α floor) : List String := m.toList.map Prod.fst

def items (m : Bindings α floor) : List α := m.toList.map Prod.snd

def size (m : Bindings α floor) : Nat := m.toList.length

def isEmpty : Bindings α floor → Bool
  | .nil => true
  | .cons .. => false

/-- The item bound to a name. -/
def get? {floor : Option String} (m : Bindings α floor) (key : String) : Option α :=
  match m with
  | .nil => none
  | .cons name _ item rest => if key = name then some item else rest.get? key

def contains (m : Bindings α floor) (key : String) : Bool := (m.get? key).isSome

/-- Bind a name, unless it is bound already. -/
def insertNew {floor : Option String} (m : Bindings α floor) (key : String)
    (follows : Follows floor key) (item : α) : Bindings α floor :=
  match m with
  | .nil => .cons key follows item .nil
  | .cons name first old rest =>
    if lt : key < name then .cons key follows item (.cons name (.of_lt lt) old rest)
    else if eq : key = name then .cons name first old rest
    else .cons name first old <| rest.insertNew key (.of_lt <| by
      have := String.not_lt.mp lt
      exact Std.lt_of_le_of_ne this (Ne.symm eq)) item

/-- Change every item, keeping the names. -/
def map (f : α → β) {floor : Option String} : Bindings α floor → Bindings β floor
  | .nil => .nil
  | .cons name follows item rest => .cons name follows (f item) (rest.map f)

@[simp] theorem toList_nil : (nil : Bindings α floor).toList = [] := rfl

@[simp] theorem toList_cons (name : String) (follows : Follows floor name) (item : α)
    (rest : Bindings α (some name)) :
    (cons name follows item rest).toList = (name, item) :: rest.toList := rfl

@[simp] theorem names_nil : (nil : Bindings α floor).names = [] := rfl

@[simp] theorem names_cons (name : String) (follows : Follows floor name) (item : α)
    (rest : Bindings α (some name)) :
    (cons name follows item rest).names = name :: rest.names := rfl

@[simp] theorem get?_nil (key : String) : (nil : Bindings α floor).get? key = none := rfl

@[simp] theorem get?_cons (name : String) (follows : Follows floor name) (item : α)
    (rest : Bindings α (some name)) (key : String) :
    (cons name follows item rest).get? key = if key = name then some item else rest.get? key := rfl

@[simp] theorem map_nil (f : α → β) : (nil : Bindings α floor).map f = .nil := rfl

@[simp] theorem map_cons (f : α → β) (name : String) (follows : Follows floor name) (item : α)
    (rest : Bindings α (some name)) :
    (cons name follows item rest).map f = .cons name follows (f item) (rest.map f) := rfl

/-- Every name lies above the floor. -/
theorem follows_of_mem_names {floor : Option String} {m : Bindings α floor} {key : String}
    (h : key ∈ m.names) : Follows floor key := by
  induction m with
  | nil => simp at h
  | cons name follows item rest ih =>
    rcases List.mem_cons.mp h with rfl | h
    · exact follows
    · exact follows.trans (ih h).lt

/-- Names increase strictly. -/
theorem pairwise_names {floor : Option String} (m : Bindings α floor) :
    m.names.Pairwise (· < ·) := by
  induction m with
  | nil => exact .nil
  | cons name follows item rest ih => exact .cons (fun _ h => (follows_of_mem_names h).lt) ih

/-- A map is determined by its list of bindings. -/
theorem toList_injective {floor : Option String} {m n : Bindings α floor}
    (h : m.toList = n.toList) : m = n := by
  induction m with
  | nil => cases n with
    | nil => rfl
    | cons => simp at h
  | cons name follows item rest ih => cases n with
    | nil => simp at h
    | cons =>
      simp only [toList_cons, List.cons.injEq, Prod.mk.injEq] at h
      obtain ⟨⟨rfl, rfl⟩, h⟩ := h
      rw [ih h]

/-- Names below all others are free. -/
theorem get?_eq_none_of_lt {floor : Option String} {m : Bindings α floor} {key : String}
    (h : ∀ name ∈ m.names, key < name) : m.get? key = none := by
  induction m with
  | nil => rfl
  | cons name follows item rest ih =>
    have first := h name (by simp)
    rw [get?_cons, if_neg (fun eq => String.lt_irrefl _ (eq ▸ first)),
      ih fun n hn => h n (by simp [hn])]

/-- Inserting binds a name that was free and leaves the others alone. -/
theorem get?_insertNew {floor : Option String} (m : Bindings α floor) (key : String)
    (follows : Follows floor key) (item : α) (key' : String) :
    (m.insertNew key follows item).get? key' =
      (m.get? key').or (if key' = key then some item else none) := by
  induction m with
  | nil => simp [insertNew]
  | cons name first old rest ih =>
    rw [insertNew]
    split
    · rename_i lt
      rw [get?_cons]
      split
      · rename_i eq
        subst eq
        rw [get?_eq_none_of_lt, Option.none_or]
        intro n hn
        rcases List.mem_cons.mp (names_cons .. ▸ hn) with rfl | hn
        · exact lt
        · exact String.lt_trans lt (follows_of_mem_names hn).lt
      · simp [get?_cons]
    · split
      · rename_i eq
        subst eq
        simp only [get?_cons]
        split <;> simp
      · simp only [get?_cons, ih]
        split <;> simp

/-- The names of a map are those that it binds. -/
theorem mem_names_iff {floor : Option String} {m : Bindings α floor} {key : String} :
    key ∈ m.names ↔ (m.get? key).isSome := by
  induction m with
  | nil => simp
  | cons name follows item rest ih =>
    simp only [names_cons, List.mem_cons, get?_cons, ih]
    split <;> simp_all

end Bindings

namespace NameMap

variable {α : Type}

def empty : NameMap α := .nil

/-- Bind a name, unless it is bound already. -/
def insertNew (m : NameMap α) (key : String) (item : α) : NameMap α :=
  Bindings.insertNew m key (.start key) item

/-- The map of some bindings.  Where a name occurs twice, the later binding counts: they are
inserted from the last to the first, which is also cheap when the names increase. -/
def ofList (bindings : List (String × α)) : NameMap α :=
  bindings.foldr (fun b m => m.insertNew b.1 b.2) empty

theorem get?_insertNew (m : NameMap α) (key : String) (item : α) (key' : String) :
    (m.insertNew key item).get? key' =
      (m.get? key').or (if key' = key then some item else none) :=
  Bindings.get?_insertNew m key _ item key'

@[simp] theorem get?_empty (key : String) : (empty : NameMap α).get? key = none := rfl

@[simp] theorem ofList_nil : (ofList [] : NameMap α) = empty := rfl

theorem ofList_cons (b : String × α) (rest : List (String × α)) :
    ofList (b :: rest) = (ofList rest).insertNew b.1 b.2 := rfl

/-- A binding counts only for lack of a later one. -/
theorem get?_ofList_cons (b : String × α) (rest : List (String × α)) (key : String) :
    (ofList (b :: rest)).get? key =
      ((ofList rest).get? key).or (if key = b.1 then some b.2 else none) :=
  get?_insertNew ..

end NameMap

end SchemaValidation
