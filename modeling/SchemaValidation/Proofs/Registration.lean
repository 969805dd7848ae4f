import SchemaValidation.Proofs.Undeclared
import SchemaValidation.Registry
import Mathlib.Data.Finset.Card
import Mathlib.Data.Finset.Dedup
import Mathlib.Data.List.Induction

/-!
# Registration

Whether a schema is refused under a name depends on the configuration and on the names that are
bound, and on nothing else: `Registry.Refuses` lists the reasons.  A registration is carried out in
place, and it goes one of two ways.  If the schema is refused, the registry is left as it was and
nothing is reported (`Update.run_register_of_refuses`).  Otherwise the name has come to be bound to
the schema, and one event is reported (`Update.run_register_of_not_refuses`).

Of entries that are registered in order, each is judged by the names of those before it.  So none is
refused exactly if the whole list is `Registry.Admissible`, and the registry then has been given all
of them in turn; otherwise the first that is refused gives the error.
-/

namespace SchemaValidation

namespace Registry

variable {r : Registry} {config : Config} {name : String} {s : Schema}

/-! ## Bindings -/

theorem nodup_names (r : Registry) : r.names.Nodup := Std.ExtTreeMap.nodup_keys

theorem pairwise_names (r : Registry) : r.names.Pairwise (· < ·) := by
  have ordered : r.names.Pairwise fun a b => compare a b = .lt := Std.ExtTreeMap.ordered_keys
  exact ordered.imp compareOfLessAndEq_eq_lt.mp

/-- The names that are bound. -/
def bound (r : Registry) : Finset String := r.names.toFinset

theorem mem_bound_iff : name ∈ r.bound ↔ r.contains name = true := by
  rw [bound, List.mem_toFinset, names, contains, Std.ExtTreeMap.mem_keys]
  exact Std.ExtTreeMap.mem_iff_contains

theorem mem_bound_iff_exists : name ∈ r.bound ↔ ∃ s, r.get? name = some s := by
  rw [mem_bound_iff, contains, Std.ExtTreeMap.contains_eq_isSome_getElem?,
    Option.isSome_iff_exists]
  rfl

theorem card_bound (r : Registry) : r.bound.card = r.size := by
  rw [bound, List.toFinset_card_of_nodup r.nodup_names, names, size]
  exact Std.ExtTreeMap.length_keys

@[simp] theorem config_empty (config : Config) : (empty config).config = config := rfl

@[simp] theorem get?_empty (config : Config) (name : String) : (empty config).get? name = none :=
  Std.ExtTreeMap.getElem?_empty

@[simp] theorem bound_empty (config : Config) : (empty config).bound = ∅ := by
  ext name
  simp [mem_bound_iff, contains, empty]

@[simp] theorem config_insert (r : Registry) (name : String) (s : Schema) :
    (r.insert name s).config = r.config := rfl

theorem get?_insert (r : Registry) (name : String) (s : Schema) (key : String) :
    (r.insert name s).get? key = if key = name then some s else r.get? key := by
  rw [get?, insert, Std.ExtTreeMap.getElem?_insert, get?]
  simp only [Std.LawfulEqCmp.compare_eq_iff_eq, eq_comm (a := name)]

@[simp] theorem bound_insert (r : Registry) (name : String) (s : Schema) :
    (r.insert name s).bound = Insert.insert name r.bound := by
  ext key
  rw [mem_bound_iff, Finset.mem_insert, mem_bound_iff, contains, insert,
    Std.ExtTreeMap.contains_insert, Bool.or_eq_true, beq_iff_eq,
    Std.LawfulEqCmp.compare_eq_iff_eq, eq_comm, contains]

/-! ## Refusals -/

/-- Why a schema is refused under a name, given the names that are bound. -/
inductive Refuses (config : Config) (bound : Finset String) (name : String) (s : Schema) :
    SchemaError → Prop
  | undeclared {path : String} (strict : config.rejectUndeclared = true)
      (first : s.undeclaredPaths.head? = some path) : Refuses config bound name s (.undeclared path)
  | taken (declared : config.rejectUndeclared = true → s.ensureDeclared = .ok ())
      (mem : name ∈ bound) (fixed : config.allowReplace = false) :
      Refuses config bound name s (.alreadyRegistered name)
  | full (declared : config.rejectUndeclared = true → s.ensureDeclared = .ok ())
      (new : name ∉ bound) (full : config.maxSchemas ≤ bound.card) :
      Refuses config bound name s (.limitExceeded config.maxSchemas)

/-- What it takes not to be refused. -/
theorem not_refuses_iff {bound : Finset String} :
    (∀ e, ¬Refuses config bound name s e) ↔
      (config.rejectUndeclared = true → s.ensureDeclared = .ok ()) ∧
      (config.allowReplace = false → name ∉ bound) ∧
      (name ∉ bound → bound.card < config.maxSchemas) := by
  constructor
  · intro h
    have declared (strict : config.rejectUndeclared = true) : s.ensureDeclared = .ok () := by
      cases refused : s.ensureDeclared with
      | ok => rfl
      | error e =>
        obtain ⟨path, first, -⟩ := Schema.ensureDeclared_eq_error_iff.mp refused
        exact (h _ (.undeclared strict first)).elim
    exact ⟨declared, fun fixed mem => h _ (.taken declared mem fixed),
      fun new => Nat.not_le.mp fun full => h _ (.full declared new full)⟩
  · rintro ⟨declared, free, room⟩ e h
    cases h with
    | undeclared strict first =>
      have refused := Schema.ensureDeclared_eq_error_iff.mpr ⟨_, first, rfl⟩
      rw [declared strict] at refused
      cases refused
    | taken _ mem fixed => exact free fixed mem
    | full _ new full => exact Nat.not_le.mpr (room new) full

/-! ## Registrations in place -/

namespace Update

theorem run_register_of_undeclared {e : SchemaError} (strict : r.config.rejectUndeclared = true)
    (h : s.ensureDeclared = .error e) : run (register name s) r = ⟨(.error e, r), []⟩ := by
  rw [register, run_get_bind, if_pos strict, h]
  rfl

theorem run_register_of_declared
    (h : r.config.rejectUndeclared = true → s.ensureDeclared = .ok ()) :
    run (register name s) r =
      if r.contains name then
        if r.config.allowReplace then ⟨(.ok (), r.insert name s), [.replaced name]⟩
        else ⟨(.error (.alreadyRegistered name), r), []⟩
      else if r.config.maxSchemas ≤ r.size then
        ⟨(.error (.limitExceeded r.config.maxSchemas), r), []⟩
      else ⟨(.ok (), r.insert name s), [.registered name s.kind.name]⟩ := by
  rw [register, run_get_bind]
  by_cases strict : r.config.rejectUndeclared = true
  · rw [if_pos strict, h strict]
    split_ifs <;> rfl
  · rw [if_neg strict]
    split_ifs <;> rfl

/-- What is refused leaves the registry as it was, and is not reported. -/
theorem run_register_of_refuses {e : SchemaError} (h : Refuses r.config r.bound name s e) :
    run (register name s) r = ⟨(.error e, r), []⟩ := by
  cases h with
  | undeclared strict first =>
    exact run_register_of_undeclared strict
      (Schema.ensureDeclared_eq_error_iff.mpr ⟨_, first, rfl⟩)
  | taken declared mem fixed =>
    rw [run_register_of_declared declared, if_pos (mem_bound_iff.mp mem), fixed]
    rfl
  | full declared new full =>
    rw [run_register_of_declared declared, if_neg (mt mem_bound_iff.mpr new),
      if_pos (r.card_bound ▸ full)]

/-- What is not refused is bound and reported. -/
theorem run_register_of_not_refuses (h : ∀ e, ¬Refuses r.config r.bound name s e) :
    run (register name s) r = ⟨(.ok (), r.insert name s),
      [if name ∈ r.bound then .replaced name else .registered name s.kind.name]⟩ := by
  obtain ⟨declared, free, room⟩ := not_refuses_iff.mp h
  rw [run_register_of_declared declared]
  by_cases old : name ∈ r.bound
  · have replaceable : r.config.allowReplace = true :=
      Bool.not_eq_false _ ▸ fun fixed => free fixed old
    rw [if_pos (mem_bound_iff.mp old), if_pos replaceable, if_pos old]
  · rw [if_neg (mt mem_bound_iff.mpr old), if_neg (r.card_bound ▸ Nat.not_le.mpr (room old)),
      if_neg old]

/-- The two ways of a registration. -/
theorem run_register (r : Registry) (name : String) (s : Schema) :
    (∃ e, Refuses r.config r.bound name s e ∧ run (register name s) r = ⟨(.error e, r), []⟩) ∨
    (∀ e, ¬Refuses r.config r.bound name s e) ∧
      run (register name s) r = ⟨(.ok (), r.insert name s),
        [if name ∈ r.bound then .replaced name else .registered name s.kind.name]⟩ := by
  by_cases refused : ∃ e, Refuses r.config r.bound name s e
  · obtain ⟨e, refuses⟩ := refused
    exact .inl ⟨e, refuses, run_register_of_refuses refuses⟩
  · have admitted := not_exists.mp refused
    exact .inr ⟨admitted, run_register_of_not_refuses admitted⟩

theorem run_register_fails_iff {e : SchemaError} :
    (run (register name s) r).result.1 = .error e ↔ Refuses r.config r.bound name s e := by
  refine ⟨fun failed => ?_, fun refuses => by rw [run_register_of_refuses refuses]⟩
  rcases run_register r name s with ⟨e', refuses, run⟩ | ⟨-, run⟩
  · rw [run] at failed
    cases failed
    exact refuses
  · rw [run] at failed
    cases failed

/-- A registration that fails has changed nothing, and reports nothing. -/
theorem run_register_of_error {e : SchemaError}
    (failed : (run (register name s) r).result.1 = .error e) :
    run (register name s) r = ⟨(.error e, r), []⟩ :=
  run_register_of_refuses (run_register_fails_iff.mp failed)

end Update

theorem result_register_of_refuses {e : SchemaError} (h : Refuses r.config r.bound name s e) :
    (r.register name s).result = .error e := by
  rw [register, update, Traced.result_map, Update.run_register_of_refuses h]
  rfl

theorem result_register_of_not_refuses (h : ∀ e, ¬Refuses r.config r.bound name s e) :
    (r.register name s).result = .ok (r.insert name s) := by
  rw [register, update, Traced.result_map, Update.run_register_of_not_refuses h]
  rfl

/-! ## Entries -/

/-- A place in a list that has one more element is the last or was there before. -/
theorem concat_eq_append_cons {α : Type} {as before after : List α} {a b : α}
    (h : as ++ [a] = before ++ b :: after) :
    (after = [] ∧ as = before ∧ a = b) ∨ ∃ rest, after = rest ++ [a] ∧ as = before ++ b :: rest := by
  rcases after.eq_nil_or_concat with rfl | ⟨rest, last, rfl⟩
  · obtain ⟨rfl, eq⟩ := List.append_inj' h rfl
    exact .inl ⟨rfl, rfl, List.singleton_inj.mp eq⟩
  · rw [List.concat_eq_append, ← List.cons_append, ← List.append_assoc] at h
    obtain ⟨rfl, eq⟩ := List.append_inj' h rfl
    exact .inr ⟨rest, by rw [List.concat_eq_append, eq], rfl⟩

/-- The names of some entries. -/
def entryNames (entries : List (String × Schema)) : Finset String :=
  (entries.map Prod.fst).toFinset

@[simp] theorem entryNames_nil : entryNames [] = ∅ := rfl

theorem entryNames_append (as bs : List (String × Schema)) :
    entryNames (as ++ bs) = entryNames as ∪ entryNames bs := by
  rw [entryNames, List.map_append, List.toFinset_append]
  rfl

theorem entryNames_concat (entries : List (String × Schema)) (name : String) (s : Schema) :
    entryNames (entries ++ [(name, s)]) = Insert.insert name (entryNames entries) := by
  rw [entryNames_append, Finset.union_comm]
  rfl

/-- The last entry of that name is for this schema. -/
def LastEntry (entries : List (String × Schema)) (name : String) (s : Schema) : Prop :=
  ∃ before after, entries = before ++ (name, s) :: after ∧ name ∉ entryNames after

theorem LastEntry.mem_entryNames {entries : List (String × Schema)}
    (h : LastEntry entries name s) : name ∈ entryNames entries := by
  obtain ⟨before, after, rfl, -⟩ := h
  simp [entryNames]

/-- A further entry is the last of its name, and of no other. -/
theorem lastEntry_concat_iff {entries : List (String × Schema)} {entry : String × Schema} :
    LastEntry (entries ++ [entry]) name s ↔
      (name, s) = entry ∨ name ≠ entry.1 ∧ LastEntry entries name s := by
  constructor
  · rintro ⟨before, after, split, last⟩
    rcases concat_eq_append_cons split with ⟨-, -, eq⟩ | ⟨rest, rfl, eq⟩
    · exact .inl eq.symm
    · rw [entryNames_concat, Finset.mem_insert, not_or] at last
      exact .inr ⟨last.1, before, rest, eq, last.2⟩
  · rintro (rfl | ⟨other, before, after, rfl, last⟩)
    · exact ⟨entries, [], rfl, Finset.notMem_empty name⟩
    · refine ⟨before, after ++ [entry], by simp, ?_⟩
      rw [entryNames_concat, Finset.mem_insert, not_or]
      exact ⟨other, last⟩

/-- Bind names to schemas in order. -/
def insertAll (r : Registry) (entries : List (String × Schema)) : Registry :=
  entries.foldl (fun r entry => r.insert entry.1 entry.2) r

@[simp] theorem insertAll_nil (r : Registry) : r.insertAll [] = r := rfl

theorem insertAll_append (r : Registry) (as bs : List (String × Schema)) :
    r.insertAll (as ++ bs) = (r.insertAll as).insertAll bs := List.foldl_append

theorem insertAll_concat (r : Registry) (entries : List (String × Schema)) (name : String)
    (s : Schema) : r.insertAll (entries ++ [(name, s)]) = (r.insertAll entries).insert name s :=
  insertAll_append r entries _

@[simp] theorem config_insertAll (r : Registry) (entries : List (String × Schema)) :
    (r.insertAll entries).config = r.config := by
  induction entries using List.reverseRecOn with
  | nil => rfl
  | append_singleton entries entry ih => rw [insertAll_concat, config_insert, ih]

theorem bound_insertAll_empty (config : Config) (entries : List (String × Schema)) :
    ((empty config).insertAll entries).bound = entryNames entries := by
  induction entries using List.reverseRecOn with
  | nil => exact bound_empty config
  | append_singleton entries entry ih =>
    rw [insertAll_concat, bound_insert, ih, entryNames_concat]

theorem get?_insertAll_empty {entries : List (String × Schema)} :
    ((empty config).insertAll entries).get? name = some s ↔ LastEntry entries name s := by
  induction entries using List.reverseRecOn with
  | nil =>
    rw [insertAll_nil, get?_empty]
    constructor
    · intro found
      cases found
    · intro last
      exact (Finset.notMem_empty name last.mem_entryNames).elim
  | append_singleton entries entry ih =>
    rw [insertAll_concat, get?_insert, lastEntry_concat_iff, ← ih]
    split
    next eq => simp [eq, Prod.ext_iff, eq_comm]
    next ne => simp [ne, Prod.ext_iff]

/-! ## Entries in order -/

/-- No entry is refused after those before it. -/
def Unrefused (config : Config) (entries : List (String × Schema)) : Prop :=
  ∀ before name s after, entries = before ++ (name, s) :: after →
    ∀ e, ¬Refuses config (entryNames before) name s e

/-- The first entry that is refused after those before it is refused for this. -/
def FirstRefused (config : Config) (entries : List (String × Schema)) (e : SchemaError) : Prop :=
  ∃ before name s after, entries = before ++ (name, s) :: after ∧ Unrefused config before ∧
    Refuses config (entryNames before) name s e

/-- The entries can all be registered. -/
structure Admissible (config : Config) (entries : List (String × Schema)) : Prop where
  declared : config.rejectUndeclared = true → ∀ entry ∈ entries, entry.2.ensureDeclared = .ok ()
  distinct : config.allowReplace = false → (entries.map Prod.fst).Nodup
  room : (entryNames entries).card ≤ config.maxSchemas

theorem unrefused_nil (config : Config) : Unrefused config [] := by
  intro before name s after split
  cases List.append_ne_nil_of_right_ne_nil before (List.cons_ne_nil _ _) split.symm

theorem unrefused_concat_iff {entries : List (String × Schema)} {entry : String × Schema} :
    Unrefused config (entries ++ [entry]) ↔
      Unrefused config entries ∧ ∀ e, ¬Refuses config (entryNames entries) entry.1 entry.2 e := by
  constructor
  · intro h
    refine ⟨fun before name s after split => ?_, h entries entry.1 entry.2 [] rfl⟩
    exact h before name s (after ++ [entry]) (by simp [split])
  · rintro ⟨h, last⟩ before name s after split
    rcases concat_eq_append_cons split with ⟨-, rfl, rfl⟩ | ⟨rest, -, eq⟩
    · exact last
    · exact h before name s rest eq

theorem nodup_concat_iff {entries : List (String × Schema)} {entry : String × Schema} :
    ((entries ++ [entry]).map Prod.fst).Nodup ↔
      entry.1 ∉ entryNames entries ∧ (entries.map Prod.fst).Nodup := by
  rw [List.map_append, List.map_singleton, ← List.concat_eq_append, List.nodup_concat, entryNames,
    List.mem_toFinset]

theorem admissible_concat_iff {entries : List (String × Schema)} {entry : String × Schema} :
    Admissible config (entries ++ [entry]) ↔
      Admissible config entries ∧ ∀ e, ¬Refuses config (entryNames entries) entry.1 entry.2 e := by
  rw [not_refuses_iff]
  constructor
  · rintro ⟨declared, distinct, room⟩
    rw [entryNames_concat] at room
    have more := Finset.card_le_card (Finset.subset_insert entry.1 (entryNames entries))
    refine ⟨⟨fun strict => ?_, fun fixed => ?_, more.trans room⟩, fun strict => ?_, fun fixed => ?_,
      fun new => ?_⟩
    · exact (List.forall_mem_append.mp (declared strict)).1
    · exact (nodup_concat_iff.mp (distinct fixed)).2
    · exact declared strict entry List.mem_concat_self
    · exact (nodup_concat_iff.mp (distinct fixed)).1
    · rwa [Finset.card_insert_of_notMem new] at room
  · rintro ⟨⟨declared, distinct, room⟩, last, free, more⟩
    refine ⟨fun strict => ?_, fun fixed => ?_, ?_⟩
    · exact List.forall_mem_append.mpr
        ⟨declared strict, List.forall_mem_singleton.mpr (last strict)⟩
    · exact nodup_concat_iff.mpr ⟨free fixed, distinct fixed⟩
    · -- only a new name takes up room
      rw [entryNames_concat]
      by_cases mem : entry.1 ∈ entryNames entries
      · rwa [Finset.insert_eq_of_mem mem]
      · rw [Finset.card_insert_of_notMem mem]
        exact more mem

/-- The conditions on the whole list say that no entry is refused in its turn. -/
theorem unrefused_iff_admissible {entries : List (String × Schema)} :
    Unrefused config entries ↔ Admissible config entries := by
  induction entries using List.reverseRecOn with
  | nil =>
    have admissible : Admissible config [] :=
      ⟨fun _ => nofun, fun _ => List.nodup_nil, Nat.zero_le _⟩
    exact iff_of_true (unrefused_nil config) admissible
  | append_singleton entries entry ih => rw [unrefused_concat_iff, admissible_concat_iff, ih]

theorem exists_firstRefused {entries : List (String × Schema)} (h : ¬Unrefused config entries) :
    ∃ e, FirstRefused config entries e := by
  induction entries using List.reverseRecOn with
  | nil => exact (h (unrefused_nil config)).elim
  | append_singleton entries entry ih =>
    by_cases earlier : Unrefused config entries
    · rw [unrefused_concat_iff, not_and, not_forall_not] at h
      obtain ⟨e, refused⟩ := h earlier
      exact ⟨e, entries, entry.1, entry.2, [], rfl, earlier, refused⟩
    · obtain ⟨e, before, name, s, after, split, rest⟩ := ih earlier
      exact ⟨e, before, name, s, after ++ [entry], by simp [split], rest⟩

/-! ## Registries of entries -/

/-- What comes after an update that fails does not count. -/
theorem result_update_bind (r : Registry) (u v : Update Unit) :
    (r.update (u >>= fun _ => v)).result =
      (r.update u).result.bind fun r => (r.update v).result := by
  rw [update, update, Traced.result_map, Traced.result_map]
  rcases h : (u.run r).result with ⟨_ | _, left⟩
  · rw [Update.result_run_bind_of_error h]
    rfl
  · rw [Update.result_run_bind_of_ok h]
    rfl

/-- An entry is registered in what those before it have made. -/
theorem result_ofEntries_append_cons {before : List (String × Schema)}
    (h : (ofEntries config before).result = .ok r) (name : String) (s : Schema)
    (after : List (String × Schema)) :
    (ofEntries config (before ++ (name, s) :: after)).result =
      (r.register name s).result.bind fun r => (r.update (.registerAll after)).result := by
  have steps : Update.registerAll (before ++ (name, s) :: after) =
      (Update.registerAll before >>= fun _ => Update.register name s >>= fun _ =>
        Update.registerAll after) := by
    rw [Update.registerAll, List.forM_append, List.forM_cons]
    rfl
  rw [ofEntries, steps, result_update_bind, ← ofEntries, h, Except.bind, result_update_bind]
  rfl

/-- While no entry is refused, all are bound. -/
theorem result_ofEntries_of_unrefused {entries : List (String × Schema)}
    (h : Unrefused config entries) :
    (ofEntries config entries).result = .ok ((empty config).insertAll entries) := by
  induction entries using List.reverseRecOn with
  | nil => rfl
  | append_singleton entries entry ih =>
    obtain ⟨name, s⟩ := entry
    obtain ⟨earlier, admitted⟩ := unrefused_concat_iff.mp h
    have registered : (((empty config).insertAll entries).register name s).result =
        .ok (((empty config).insertAll entries).insert name s) := by
      refine result_register_of_not_refuses ?_
      rwa [config_insertAll, config_empty, bound_insertAll_empty]
    rw [result_ofEntries_append_cons (ih earlier), registered, insertAll_concat]
    rfl

theorem result_ofEntries_of_firstRefused {entries : List (String × Schema)} {e : SchemaError}
    (h : FirstRefused config entries e) : (ofEntries config entries).result = .error e := by
  obtain ⟨before, name, s, after, rfl, earlier, refused⟩ := h
  have failed : (((empty config).insertAll before).register name s).result = .error e := by
    refine result_register_of_refuses ?_
    rwa [config_insertAll, config_empty, bound_insertAll_empty]
  rw [result_ofEntries_append_cons (result_ofEntries_of_unrefused earlier), failed]
  rfl

theorem result_ofEntries_eq_ok_iff {entries : List (String × Schema)} :
    (ofEntries config entries).result = .ok r ↔
      Unrefused config entries ∧ r = (empty config).insertAll entries := by
  constructor
  · intro h
    by_cases unrefused : Unrefused config entries
    · rw [result_ofEntries_of_unrefused unrefused] at h
      exact ⟨unrefused, (Except.ok.inj h).symm⟩
    · obtain ⟨e, first⟩ := exists_firstRefused unrefused
      rw [result_ofEntries_of_firstRefused first] at h
      cases h
  · rintro ⟨unrefused, rfl⟩
    exact result_ofEntries_of_unrefused unrefused

theorem result_ofEntries_eq_error_iff {entries : List (String × Schema)} {e : SchemaError} :
    (ofEntries config entries).result = .error e ↔ FirstRefused config entries e := by
  refine ⟨fun h => ?_, result_ofEntries_of_firstRefused⟩
  by_cases unrefused : Unrefused config entries
  · rw [result_ofEntries_of_unrefused unrefused] at h
    cases h
  · obtain ⟨e', first⟩ := exists_firstRefused unrefused
    rw [result_ofEntries_of_firstRefused first] at h
    cases h
    exact first

/-- Entries are registered exactly if they are all declared, where that is asked for, have different
names, where none may be replaced, and have no more names than there is room for.  Then each name is
bound to the schema of its last entry.  Otherwise the first entry that is refused after those before
it gives the error. -/
theorem ofEntries_closed_form (config : Config) (entries : List (String × Schema)) :
    ((∃ r, (ofEntries config entries).result = .ok r) ↔
      (config.rejectUndeclared = true → ∀ entry ∈ entries, entry.2.ensureDeclared = .ok ()) ∧
      (config.allowReplace = false → (entries.map Prod.fst).Nodup) ∧
      (entryNames entries).card ≤ config.maxSchemas) ∧
    (∀ r, (ofEntries config entries).result = .ok r → r.config = config ∧
      ∀ name s, r.get? name = some s ↔ LastEntry entries name s) ∧
    (∀ e, (ofEntries config entries).result = .error e ↔ FirstRefused config entries e) := by
  simp only [result_ofEntries_eq_ok_iff, exists_and_left, exists_eq, and_true,
    unrefused_iff_admissible]
  refine ⟨⟨?_, ?_⟩, ?_, fun e => result_ofEntries_eq_error_iff⟩
  · rintro ⟨declared, distinct, room⟩
    exact ⟨declared, distinct, room⟩
  · rintro ⟨declared, distinct, room⟩
    exact ⟨declared, distinct, room⟩
  · rintro r ⟨-, rfl⟩
    exact ⟨config_insertAll _ _, fun name s => get?_insertAll_empty⟩

/-- Where there is room for one name, a schema may still give way to another. -/
theorem ofEntries_closed_form_replaced :
    (ofEntries ⟨false, false, true, 1⟩ [("a", .string .blank), ("a", .number .blank)]).result =
      .ok ((empty ⟨false, false, true, 1⟩).insertAll
        [("a", .string .blank), ("a", .number .blank)]) ∧
    ((empty ⟨false, false, true, 1⟩).insertAll
      [("a", .string .blank), ("a", .number .blank)]).config = ⟨false, false, true, 1⟩ ∧
    ∀ name s, ((empty ⟨false, false, true, 1⟩).insertAll
      [("a", .string .blank), ("a", .number .blank)]).get? name = some s ↔
        LastEntry [("a", .string .blank), ("a", .number .blank)] name s := by
  have registered : (ofEntries ⟨false, false, true, 1⟩
      [("a", .string .blank), ("a", .number .blank)]).result =
        .ok ((empty ⟨false, false, true, 1⟩).insertAll
          [("a", .string .blank), ("a", .number .blank)]) := rfl
  exact ⟨registered, (ofEntries_closed_form _ _).2.1 _ registered⟩

example : (ofEntries ⟨false, false, false, 1⟩
    [("a", .string .blank), ("b", .number .blank)]).result = .error (.limitExceeded 1) := rfl

end Registry

end SchemaValidation
