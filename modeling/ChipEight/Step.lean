import ChipEight.Fault
import ChipEight.Note

/-!
Steps: actions on a state that may write notes and may fail. A failed step leaves the state that it
had reached, so what a fault spares and what it keeps is part of every outcome.
-/

namespace ChipEight

variable {σ τ α β : Type}

/-- What a step leaves: a state, the notes written on the way, and a result or the fault that ended
it. -/
structure Outcome (σ α : Type) where
  state : σ
  notes : List Note
  result : Except Fault α

/-- An action on a state, told whether it is traced. -/
def Step (σ α : Type) : Type :=
  (traced : Bool) → σ → Outcome σ α

namespace Step

protected def pure (a : α) : Step σ α :=
  fun _ state => ⟨state, [], .ok a⟩

/-- The second step starts where the first one ended, and is left out if the first one failed. -/
protected def bind (first : Step σ α) (second : α → Step σ β) : Step σ β :=
  fun traced state =>
    match first traced state with
    | ⟨state, notes, .error fault⟩ => ⟨state, notes, .error fault⟩
    | ⟨state, notes, .ok a⟩ =>
        match second a traced state with
        | ⟨state, more, result⟩ => ⟨state, notes ++ more, result⟩

instance : Monad (Step σ) where
  pure := Step.pure
  bind := Step.bind

protected def get : Step σ σ :=
  fun _ state => ⟨state, [], .ok state⟩

protected def modify (f : σ → σ) : Step σ Unit :=
  fun _ state => ⟨f state, [], .ok ()⟩

protected def fail (fault : Fault) : Step σ α :=
  fun _ state => ⟨state, [], .error fault⟩

/-- A result that needs no state. -/
protected def ofExcept (result : Except Fault α) : Step σ α :=
  fun _ state => ⟨state, [], result⟩

/-- Only a traced step writes. -/
protected def note (note : Note) : Step σ Unit :=
  fun traced state => ⟨state, if traced then [note] else [], .ok ()⟩

/-- A step whose fault becomes its result. -/
protected def caught (step : Step σ α) : Step σ (Except Fault α) :=
  fun traced state =>
    match step traced state with
    | ⟨state, notes, result⟩ => ⟨state, notes, .ok result⟩

/-- A step on a part of the state; the rest stays. -/
protected def on (part : τ → σ) (install : τ → σ → τ) (step : Step σ α) : Step τ α :=
  fun traced whole =>
    match step traced (part whole) with
    | ⟨state, notes, result⟩ => ⟨install whole state, notes, result⟩

@[simp]
theorem pure_apply (a : α) (traced : Bool) (state : σ) :
    (pure a : Step σ α) traced state = ⟨state, [], .ok a⟩ := rfl

@[simp]
theorem bind_apply (first : Step σ α) (second : α → Step σ β) (traced : Bool) (state : σ) :
    (first >>= second) traced state =
      match first traced state with
      | ⟨state, notes, .error fault⟩ => ⟨state, notes, .error fault⟩
      | ⟨state, notes, .ok a⟩ =>
          match second a traced state with
          | ⟨state, more, result⟩ => ⟨state, notes ++ more, result⟩ := rfl

@[simp]
theorem get_apply (traced : Bool) (state : σ) :
    (Step.get : Step σ σ) traced state = ⟨state, [], .ok state⟩ := rfl

@[simp]
theorem modify_apply (f : σ → σ) (traced : Bool) (state : σ) :
    Step.modify f traced state = ⟨f state, [], .ok ()⟩ := rfl

@[simp]
theorem fail_apply (fault : Fault) (traced : Bool) (state : σ) :
    (Step.fail fault : Step σ α) traced state = ⟨state, [], .error fault⟩ := rfl

@[simp]
theorem ofExcept_apply (result : Except Fault α) (traced : Bool) (state : σ) :
    (Step.ofExcept result : Step σ α) traced state = ⟨state, [], result⟩ := rfl

@[simp]
theorem note_apply (note : Note) (traced : Bool) (state : σ) :
    (Step.note note : Step σ Unit) traced state =
      ⟨state, if traced then [note] else [], .ok ()⟩ := rfl

@[simp]
theorem caught_apply (step : Step σ α) (traced : Bool) (state : σ) :
    Step.caught step traced state =
      ⟨(step traced state).state, (step traced state).notes, .ok (step traced state).result⟩ := rfl

@[simp]
theorem on_apply (part : τ → σ) (install : τ → σ → τ) (step : Step σ α) (traced : Bool)
    (whole : τ) :
    Step.on part install step traced whole =
      ⟨install whole (step traced (part whole)).state, (step traced (part whole)).notes,
        (step traced (part whole)).result⟩ := rfl

end Step

end ChipEight
