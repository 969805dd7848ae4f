import SchemaValidation.Proofs.Session

/-!
# Growth

What a registry keeps in the course of a session.  `Registry.Move` lists the ways a call can go,
with all that comes of it; every fact about sessions is seen from there, one way at a time.

There is never more in a registry than it has room for, and nothing undeclared where that is asked
for (`Registry.Sound`).  What a registry has become by some calls extends it (`Registry.Extends`):
no name is lost, and unless schemas may be replaced, no binding changes.
-/

namespace SchemaValidation

namespace Registry

variable {config : Config} {r r' r'' : Registry} {c : Call} {outcome : Traced Answer}
  {name : String} {s : Schema} {history : List Exchange}

/-! ## The ways of a call -/

/-- How a call goes: what it answers, and the registry after it. -/
inductive Move (r : Registry) : Call → Traced Answer → Registry → Prop
  | read {c : Call} (reads : ∀ name s, c ≠ .register name s) : Move r c (r.answer c) r
  | refused {name : String} {s : Schema} {e : SchemaError}
      (refuses : Refuses r.config r.bound name s e) :
      Move r (.register name s) ⟨.done (.error e), []⟩ r
  | added {name : String} {s : Schema}
      (declared : r.config.rejectUndeclared = true → s.ensureDeclared = .ok ())
      (new : name ∉ r.bound) (room : r.bound.card < r.config.maxSchemas) :
      Move r (.register name s) ⟨.done (.ok ()), [.registered name s.kind.name]⟩ (r.insert name s)
  | replaced {name : String} {s : Schema}
      (declared : r.config.rejectUndeclared = true → s.ensureDeclared = .ok ())
      (old : name ∈ r.bound) (replaceable : r.config.allowReplace = true) :
      Move r (.register name s) ⟨.done (.ok ()), [.replaced name]⟩ (r.insert name s)

theorem move_register (r : Registry) (name : String) (s : Schema) :
    r.Move (.register name s) (r.answer (.register name s)) (r.after (.register name s)) := by
  rcases Update.run_register r name s with ⟨e, refuses, run⟩ | ⟨admitted, run⟩
  · rw [answer, after, run]
    exact .refused refuses
  · obtain ⟨declared, free, room⟩ := not_refuses_iff.mp admitted
    rw [answer, after, run]
    by_cases old : name ∈ r.bound
    · rw [if_pos old]
      exact .replaced declared old (Bool.not_eq_false _ ▸ fun fixed => free fixed old)
    · rw [if_neg old]
      exact .added declared old (room old)

/-- Every call goes one of these ways. -/
theorem move (r : Registry) (c : Call) : r.Move c (r.answer c) (r.after c) := by
  cases c with
  | register name s => exact r.move_register name s
  | _ => exact .read fun _ _ eq => by cases eq

/-! ## What holds at all times -/

/-- A registry that keeps to its configuration. -/
structure Sound (r : Registry) : Prop where
  room : r.bound.card ≤ r.config.maxSchemas
  declared : r.config.rejectUndeclared = true →
    ∀ name s, r.get? name = some s → s.ensureDeclared = .ok ()

theorem sound_empty (config : Config) : (empty config).Sound where
  room := by simp
  declared := by simp

theorem Sound.insert (h : r.Sound)
    (declared : r.config.rejectUndeclared = true → s.ensureDeclared = .ok ())
    (room : (Insert.insert name r.bound).card ≤ r.config.maxSchemas) : (r.insert name s).Sound where
  room := by rwa [bound_insert]
  declared := by
    intro strict key t found
    rw [get?_insert] at found
    split at found
    · exact Option.some.inj found ▸ declared strict
    · exact h.declared strict key t found

theorem Sound.move (h : r.Sound) (move : r.Move c outcome r') : r'.Sound := by
  cases move with
  | read | refused => exact h
  | added declared new room =>
    refine h.insert declared ?_
    rw [Finset.card_insert_of_notMem new]
    exact room
  | replaced declared old =>
    refine h.insert declared ?_
    rw [Finset.insert_eq_of_mem old]
    exact h.room

theorem Session.sound (session : Session config history r) : r.Sound := by
  induction session with
  | start => exact sound_empty config
  | @call history r session c ih => exact ih.move (r.move c)

/-! ## What is kept -/

/-- The first registry may become the second: nothing is lost. -/
structure Extends (r r' : Registry) : Prop where
  config_eq : r'.config = r.config
  bound_subset : r.bound ⊆ r'.bound
  kept : r.config.allowReplace = false →
    ∀ name s, r.get? name = some s → r'.get? name = some s

namespace Extends

theorem refl (r : Registry) : r.Extends r where
  config_eq := rfl
  bound_subset := Finset.Subset.refl _
  kept _ _ _ found := found

theorem trans (h : r.Extends r') (h' : r'.Extends r'') : r.Extends r'' where
  config_eq := h'.config_eq.trans h.config_eq
  bound_subset := h.bound_subset.trans h'.bound_subset
  kept fixed name s found :=
    h'.kept (h.config_eq ▸ fixed) name s (h.kept fixed name s found)

theorem of_move (move : r.Move c outcome r') : r.Extends r' := by
  cases move with
  | read | refused => exact .refl r
  | @added name s _ new _ =>
    refine ⟨rfl, by simp, fun _ key t found => ?_⟩
    have other : key ≠ name := by
      rintro rfl
      exact new (mem_bound_iff_exists.mpr ⟨t, found⟩)
    rw [get?_insert, if_neg other, found]
  | replaced _ _ replaceable =>
    refine ⟨rfl, by simp, fun fixed => ?_⟩
    cases replaceable.symm.trans fixed

end Extends

/-- A call adds one name at most. -/
theorem card_sdiff_bound_le_one (move : r.Move c outcome r') : (r'.bound \ r.bound).card ≤ 1 := by
  cases move with
  | read | refused => simp
  | @added name | @replaced name =>
    rw [bound_insert, Finset.insert_eq, Finset.union_sdiff_distrib, Finset.sdiff_self,
      Finset.union_empty]
    exact Finset.card_le_card Finset.sdiff_subset

/-- A registry extends what it was at any time before. -/
theorem Session.extends (session : Session config history r) {more : List Exchange}
    (later : Session config (history ++ more) r') : r.Extends r' := by
  generalize whole : history ++ more = longer at later
  induction later generalizing more with
  | start =>
    obtain ⟨rfl, -⟩ := List.append_eq_nil_iff.mp whole
    rw [session.registry_eq]
    exact .refl _
  | @call longer r' before c ih =>
    rcases more.eq_nil_or_concat with rfl | ⟨rest, last, rfl⟩
    · -- nothing more was called
      rw [List.append_nil] at whole
      rw [session.registry_eq, whole, ← (before.call c).registry_eq]
      exact .refl _
    · rw [List.concat_eq_append, ← List.append_assoc] at whole
      obtain ⟨earlier, -⟩ := List.append_inj' whole rfl
      exact (ih earlier).trans (.of_move (r'.move c))

/-! ## All sessions -/

/-- A session leaves no more schemas than there is room for, and none that is undeclared where that
is asked for.  In the rest of the session the configuration stays as it is, no name is lost, each
call adds one name at most, and unless schemas may be replaced, bound names stay bound to the very
same schemas. -/
theorem Session.invariants (session : Session config history r) :
    r.size ≤ config.maxSchemas ∧
    (config.rejectUndeclared = true →
      ∀ name s, r.get? name = some s → s.undeclaredPaths = []) ∧
    r.config = config ∧
    (∀ c, ((r.after c).bound \ r.bound).card ≤ 1) ∧
    ∀ more r', Session config (history ++ more) r' →
      r'.config = r.config ∧ r.bound ⊆ r'.bound ∧
      (config.allowReplace = false →
        ∀ name s, r.get? name = some s → r'.get? name = some s) := by
  obtain ⟨room, declared⟩ := session.sound
  rw [session.config_eq] at room declared
  refine ⟨r.card_bound ▸ room, fun strict name s found => ?_, session.config_eq,
    fun c => card_sdiff_bound_le_one (r.move c), fun more r' later => ?_⟩
  · exact Schema.ensureDeclared_eq_ok_iff_undeclaredPaths.mp (declared strict name s found)
  · obtain ⟨config_eq, bound_subset, kept⟩ := session.extends later
    exact ⟨config_eq, bound_subset, fun fixed => kept (session.config_eq ▸ fixed)⟩

/-- Where there is room for one schema, the first stays, whatever is tried after it. -/
theorem Session.invariants_full : ∃ history r more r',
    Session ⟨false, true, false, 1⟩ history r ∧ r.get? "a" = some (.string .blank) ∧
    r.size ≤ 1 ∧ (Schema.string .blank).undeclaredPaths = [] ∧
    Session ⟨false, true, false, 1⟩ (history ++ more) r' ∧
    r'.get? "a" = some (.string .blank) := by
  have opened : Session ⟨false, true, false, 1⟩ [] (empty ⟨false, true, false, 1⟩) := .start
  have session := opened.call (.register "a" (.string .blank))
  have later := (session.call (.register "a" (.number .blank))).call (.register "b" .blank)
  rw [List.append_assoc] at later
  obtain ⟨room, declared, -, -, kept⟩ := session.invariants
  have found : ((empty ⟨false, true, false, 1⟩).after (.register "a" (.string .blank))).get? "a" =
      some (.string .blank) := rfl
  exact ⟨_, _, _, _, session, found, room, declared rfl _ _ found, later,
    (kept _ _ later).2.2 rfl _ _ found⟩

end Registry

end SchemaValidation
