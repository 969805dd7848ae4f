import SchemaValidation.Event

/-!
# Traced computations

A traced computation has a result and the list of events that came about on the way to it.
`Traced` is a lawful monad: the events of the steps follow one another.

Lists are searched with `List.allM` and `List.anyM`, which stop at the first element that decides.
`result_allM` and `result_anyM` give their results without regard to the events.
-/

namespace SchemaValidation

@[ext]
structure Traced (α : Type) where
  result : α
  events : List Event

namespace Traced

variable {α β : Type}

/-- Some events and then others.  Where no others follow, none are copied. -/
def andThen (events : List Event) : List Event → List Event
  | [] => events
  | later => events ++ later

@[simp] theorem andThen_eq (events later : List Event) : andThen events later = events ++ later := by
  cases later <;> simp [andThen]

instance : Monad Traced where
  pure a := ⟨a, []⟩
  bind x k := let y := k x.result; ⟨y.result, andThen x.events y.events⟩

/-- Report an event. -/
def emit (e : Event) : Traced Unit := ⟨(), [e]⟩

@[simp] theorem result_pure (a : α) : (pure a : Traced α).result = a := rfl

@[simp] theorem events_pure (a : α) : (pure a : Traced α).events = [] := rfl

@[simp] theorem result_bind (x : Traced α) (k : α → Traced β) :
    (x >>= k).result = (k x.result).result := rfl

@[simp] theorem events_bind (x : Traced α) (k : α → Traced β) :
    (x >>= k).events = x.events ++ (k x.result).events := andThen_eq ..

@[simp] theorem result_emit (e : Event) : (emit e).result = () := rfl

@[simp] theorem events_emit (e : Event) : (emit e).events = [e] := rfl

instance : LawfulMonad Traced :=
  LawfulMonad.mk' Traced (fun _ => Traced.ext rfl rfl) (fun _ _ => Traced.ext rfl (by simp))
    (fun _ _ _ => Traced.ext rfl (by simp))

@[simp] theorem result_map (f : α → β) (x : Traced α) : (f <$> x).result = f x.result := rfl

@[simp] theorem events_map (f : α → β) (x : Traced α) : (f <$> x).events = x.events := rfl

/-- Report an event if the verdict is against. -/
def onReject (e : Event) (x : Traced Bool) : Traced Bool := do
  let accepted ← x
  unless accepted do emit e
  return accepted

@[simp] theorem result_onReject (e : Event) (x : Traced Bool) :
    (onReject e x).result = x.result := by
  cases h : x.result <;> simp [onReject, h]

@[simp] theorem events_onReject (e : Event) (x : Traced Bool) :
    (onReject e x).events = x.events ++ if x.result then [] else [e] := by
  cases h : x.result <;> simp [onReject, h]

/-- Both, the second only if the first holds. -/
@[macro_inline]
def both (x y : Traced Bool) : Traced Bool := do if ← x then y else return false

@[simp] theorem result_both (x y : Traced Bool) :
    (both x y).result = (x.result && y.result) := by
  cases h : x.result <;> simp [both, h]

@[simp] theorem events_both (x y : Traced Bool) :
    (both x y).events = x.events ++ if x.result then y.events else [] := by
  cases h : x.result <;> simp [both, h]

/-- One of two, the second tried only if the first fails. -/
@[macro_inline]
def either (x y : Traced Bool) : Traced Bool := do if ← x then return true else y

@[simp] theorem result_either (x y : Traced Bool) :
    (either x y).result = (x.result || y.result) := by
  cases h : x.result <;> simp [either, h]

@[simp] theorem events_either (x y : Traced Bool) :
    (either x y).events = x.events ++ if x.result then [] else y.events := by
  cases h : x.result <;> simp [either, h]

theorem allM_cons (p : α → Traced Bool) (a : α) (as : List α) :
    (a :: as).allM p = both (p a) (as.allM p) := by
  rw [List.allM_cons]
  rfl

theorem anyM_cons (p : α → Traced Bool) (a : α) (as : List α) :
    (a :: as).anyM p = either (p a) (as.anyM p) := by
  rw [List.anyM_cons]
  rfl

theorem result_allM (p : α → Traced Bool) (as : List α) :
    (as.allM p).result = as.all fun a => (p a).result := by
  induction as with
  | nil => rfl
  | cons a as ih => rw [allM_cons, result_both, ih, List.all_cons]

theorem result_anyM (p : α → Traced Bool) (as : List α) :
    (as.anyM p).result = as.any fun a => (p a).result := by
  induction as with
  | nil => rfl
  | cons a as ih => rw [anyM_cons, result_either, ih, List.any_cons]

end Traced

end SchemaValidation
