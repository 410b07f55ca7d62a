import ChipEight.Step

/-!
Rules for steps: how to take one apart at a bind, when one says nothing, what one keeps, how to run
two side by side, and how to run many of which some may fail. Two steps agree over a relation
between their states if they keep the relation and come to related results, or fail for the same
reason. Notes take no part in that, so neither does tracing.
-/

namespace ChipEight

variable {σ τ ρ ν α β γ δ ι : Type}

/-- Two results agree: both are values, and related, or both are the same fault. -/
def ResultsAgree (S : α → β → Prop) : Except Fault α → Except Fault β → Prop
  | .ok a, .ok b => S a b
  | .error fault, .error fault' => fault = fault'
  | _, _ => False

theorem resultsAgree_eq_iff {result result' : Except Fault α} :
    ResultsAgree Eq result result' ↔ result = result' := by
  cases result <;> cases result' <;> simp [ResultsAgree]

theorem eq_of_resultsAgree {result result' : Except Fault (Option α)}
    (h : ResultsAgree (Option.Rel Eq) result result') : result = result' := by
  have hanswers : Option.Rel (Eq : α → α → Prop) = Eq := by
    funext answer answer'
    cases answer <;> cases answer' <;> simp
  rwa [hanswers, resultsAgree_eq_iff] at h

namespace Step

section Bind

variable {first : Step σ α} {second : α → Step σ β} {traced : Bool} {state : σ}

/-- A first part that succeeds hands its state to the second part, whose result counts. -/
theorem bind_of_ok {a : α} (hresult : (first traced state).result = .ok a) :
    (first >>= second) traced state =
      ⟨(second a traced (first traced state).state).state,
        (first traced state).notes ++ (second a traced (first traced state).state).notes,
        (second a traced (first traced state).state).result⟩ := by
  rw [bind_apply]
  cases hout : first traced state with
  | mk reached notes result =>
      rw [hout] at hresult
      subst hresult
      rfl

/-- A first part that fails is all there is. -/
theorem bind_of_error {fault : Fault} (hresult : (first traced state).result = .error fault) :
    (first >>= second) traced state =
      ⟨(first traced state).state, (first traced state).notes, .error fault⟩ := by
  rw [bind_apply]
  cases hout : first traced state with
  | mk reached notes result =>
      rw [hout] at hresult
      subst hresult
      rfl

theorem get_bind (next : σ → Step σ β) :
    (Step.get >>= next) traced state = next state traced state :=
  bind_of_ok rfl

theorem state_bind_pure (step : Step σ α) (f : α → β) (traced : Bool) (state : σ) :
    ((step >>= fun a => pure (f a)) traced state).state = (step traced state).state := by
  cases hresult : (step traced state).result with
  | ok a => rw [bind_of_ok hresult, pure_apply]
  | error fault => rw [bind_of_error hresult]

end Bind

/-- Nothing is written down, also if it is traced. -/
def Silent (step : Step σ α) : Prop :=
  ∀ traced state, (step traced state).notes = []

theorem notes_bind_of_silent {first : Step σ α} {second : α → Step σ β}
    (hsecond : ∀ a, Silent (second a)) (traced : Bool) (state : σ) :
    ((first >>= second) traced state).notes = (first traced state).notes := by
  cases hresult : (first traced state).result with
  | error fault => rw [bind_of_error hresult]
  | ok a => rw [bind_of_ok hresult, hsecond a, List.append_nil]

namespace Silent

protected theorem pure (a : α) : Silent (pure a : Step σ α) :=
  fun _ _ => rfl

protected theorem get : Silent (Step.get : Step σ σ) :=
  fun _ _ => rfl

protected theorem modify (f : σ → σ) : Silent (Step.modify f) :=
  fun _ _ => rfl

protected theorem fail (fault : Fault) : Silent (Step.fail fault : Step σ α) :=
  fun _ _ => rfl

protected theorem ofExcept (result : Except Fault α) : Silent (Step.ofExcept result : Step σ α) :=
  fun _ _ => rfl

protected theorem bind {first : Step σ α} {second : α → Step σ β} (hfirst : Silent first)
    (hsecond : ∀ a, Silent (second a)) : Silent (first >>= second) := fun traced state =>
  (notes_bind_of_silent hsecond traced state).trans (hfirst traced state)

protected theorem on {part : τ → σ} {install : τ → σ → τ} {step : Step σ α} (hstep : Silent step) :
    Silent (Step.on part install step) :=
  fun traced whole => hstep traced (part whole)

end Silent

/-- Whether it succeeds or fails, a step keeps `P`; if it fails, the fault is one of `F`. -/
def Keeps (P : σ → Prop) (F : Fault → Prop) (step : Step σ α) : Prop :=
  ∀ traced state, P state →
    P (step traced state).state ∧ ∀ fault, (step traced state).result = .error fault → F fault

namespace Keeps

variable {P : σ → Prop} {F G : Fault → Prop}

theorem mono {step : Step σ α} (hstep : Keeps P F step) (hfaults : ∀ fault, F fault → G fault) :
    Keeps P G step := fun traced state hstate =>
  ⟨(hstep traced state hstate).1,
    fun fault hfault => hfaults fault ((hstep traced state hstate).2 fault hfault)⟩

protected theorem pure (a : α) : Keeps P F (pure a : Step σ α) :=
  fun _ _ hstate => ⟨hstate, fun _ hfault => nomatch hfault⟩

protected theorem modify {f : σ → σ} (h : ∀ state, P state → P (f state)) :
    Keeps P F (Step.modify f) :=
  fun _ state hstate => ⟨h state hstate, fun _ hfault => nomatch hfault⟩

protected theorem bind {first : Step σ α} {second : α → Step σ β} (hfirst : Keeps P F first)
    (hsecond : ∀ a, Keeps P F (second a)) : Keeps P F (first >>= second) := by
  intro traced state hstate
  obtain ⟨hreached, hfault⟩ := hfirst traced state hstate
  cases hresult : (first traced state).result with
  | error fault =>
      rw [bind_of_error hresult]
      refine ⟨hreached, fun fault' heq => hfault fault' ?_⟩
      rw [hresult]
      exact congrArg _ (Except.error.inj heq)
  | ok a =>
      rw [bind_of_ok hresult]
      exact hsecond a traced _ hreached

end Keeps

/-- Side by side from two states, two steps come to states related by `R` and results related by
`S`. -/
def AgreeFrom (R : σ → τ → Prop) (S : α → β → Prop) (left : Step σ α) (right : Step τ β)
    (state : σ) (state' : τ) : Prop :=
  ∀ traced traced',
    R (left traced state).state (right traced' state').state ∧
      ResultsAgree S (left traced state).result (right traced' state').result

/-- Side by side, two steps keep `R` between their states and come to results related by `S`. -/
def Agree (R : σ → τ → Prop) (S : α → β → Prop) (left : Step σ α) (right : Step τ β) : Prop :=
  ∀ traced traced' state state', R state state' →
    R (left traced state).state (right traced' state').state ∧
      ResultsAgree S (left traced state).result (right traced' state').result

/-- Where two first parts have come to related states and results, agreeing second parts go on. -/
theorem agree_bind {R : σ → τ → Prop} {S : α → β → Prop} {T : γ → δ → Prop} {state : σ} {state' : τ}
    {first : Step σ α} {first' : Step τ β} {second : α → Step σ γ} {second' : β → Step τ δ}
    {traced traced' : Bool} (hreached : R (first traced state).state (first' traced' state').state)
    (hresults : ResultsAgree S (first traced state).result (first' traced' state').result)
    (hsecond : ∀ a b, S a b → Agree R T (second a) (second' b)) :
    R ((first >>= second) traced state).state ((first' >>= second') traced' state').state ∧
      ResultsAgree T ((first >>= second) traced state).result
        ((first' >>= second') traced' state').result := by
  cases hresult : (first traced state).result with
  | error fault =>
      cases hresult' : (first' traced' state').result with
      | error fault' =>
          rw [hresult, hresult'] at hresults
          rw [bind_of_error hresult, bind_of_error hresult']
          exact ⟨hreached, hresults⟩
      | ok b => simp [hresult, hresult', ResultsAgree] at hresults
  | ok a =>
      cases hresult' : (first' traced' state').result with
      | error fault' => simp [hresult, hresult', ResultsAgree] at hresults
      | ok b =>
          rw [hresult, hresult'] at hresults
          rw [bind_of_ok hresult, bind_of_ok hresult']
          exact hsecond a b hresults traced traced' _ _ hreached

namespace AgreeFrom

variable {R : σ → τ → Prop} {S : α → β → Prop} {T : γ → δ → Prop} {state : σ} {state' : τ}

theorem get_bind {second : σ → Step σ γ} {second' : τ → Step τ δ}
    (h : AgreeFrom R T (second state) (second' state') state state') :
    AgreeFrom R T (Step.get >>= second) (Step.get >>= second') state state' := by
  intro traced traced'
  rw [bind_of_ok rfl, bind_of_ok rfl]
  exact h traced traced'

protected theorem bind {first : Step σ α} {first' : Step τ β} {second : α → Step σ γ}
    {second' : β → Step τ δ} (hfirst : AgreeFrom R S first first' state state')
    (hsecond : ∀ a b, S a b → Agree R T (second a) (second' b)) :
    AgreeFrom R T (first >>= second) (first' >>= second') state state' := fun traced traced' =>
  agree_bind (hfirst traced traced').1 (hfirst traced traced').2 hsecond

/-- A first part that comes to the same value on both sides hands it to both second parts. -/
theorem bindSame {first : Step σ α} {first' : Step τ α} {second : α → Step σ γ}
    {second' : α → Step τ δ} (hfirst : AgreeFrom R Eq first first' state state')
    (hsecond : ∀ a, Agree R T (second a) (second' a)) :
    AgreeFrom R T (first >>= second) (first' >>= second') state state' :=
  hfirst.bind fun a _ heq => heq ▸ hsecond a

end AgreeFrom

namespace Agree

variable {R : σ → τ → Prop} {S : α → β → Prop} {T : γ → δ → Prop}

protected theorem pure {a : α} {b : β} (h : S a b) :
    Agree R S (pure a : Step σ α) (pure b : Step τ β) :=
  fun _ _ _ _ hstates => ⟨hstates, h⟩

protected theorem get : Agree R R (Step.get : Step σ σ) (Step.get : Step τ τ) :=
  fun _ _ _ _ hstates => ⟨hstates, hstates⟩

protected theorem modify {f : σ → σ} {g : τ → τ}
    (h : ∀ state state', R state state' → R (f state) (g state')) :
    Agree R Eq (Step.modify f) (Step.modify g) :=
  fun _ _ state state' hstates => ⟨h state state' hstates, rfl⟩

protected theorem modifySame (f : σ → σ) : Agree Eq Eq (Step.modify f) (Step.modify f) :=
  .modify fun _ _ hstates => congrArg f hstates

protected theorem fail {fault : Fault} :
    Agree R S (Step.fail fault : Step σ α) (Step.fail fault : Step τ β) :=
  fun _ _ _ _ hstates => ⟨hstates, rfl⟩

protected theorem ofExcept (result : Except Fault α) :
    Agree R Eq (Step.ofExcept result : Step σ α) (Step.ofExcept result : Step τ α) :=
  fun _ _ _ _ hstates => ⟨hstates, resultsAgree_eq_iff.mpr rfl⟩

protected theorem note {note note' : Note} :
    Agree R Eq (Step.note note : Step σ Unit) (Step.note note' : Step τ Unit) :=
  fun _ _ _ _ hstates => ⟨hstates, rfl⟩

protected theorem apply {left : Step σ α} {right : Step τ β} (h : Agree R S left right)
    {state : σ} {state' : τ} (hstates : R state state') : AgreeFrom R S left right state state' :=
  fun traced traced' => h traced traced' state state' hstates

protected theorem bind {first : Step σ α} {first' : Step τ β} {second : α → Step σ γ}
    {second' : β → Step τ δ} (hfirst : Agree R S first first')
    (hsecond : ∀ a b, S a b → Agree R T (second a) (second' b)) :
    Agree R T (first >>= second) (first' >>= second') :=
  fun traced traced' _ _ hstates => (hfirst.apply hstates).bind hsecond traced traced'

/-- First parts that come to the same value hand it to both second parts. -/
protected theorem bindSame {first : Step σ α} {first' : Step τ α} {second : α → Step σ γ}
    {second' : α → Step τ δ} (hfirst : Agree R Eq first first')
    (hsecond : ∀ a, Agree R T (second a) (second' a)) :
    Agree R T (first >>= second) (first' >>= second') :=
  .bind hfirst fun a _ heq => heq ▸ hsecond a

/-- Steps on a part of each state agree if the relation splits at that part. -/
protected theorem on {Q : ρ → ν → Prop} {part : σ → ρ} {install : σ → ρ → σ} {part' : τ → ν}
    {install' : τ → ν → τ} {step : Step ρ α} {step' : Step ν β} (hstep : Agree Q S step step')
    (hpart : ∀ state state', R state state' → Q (part state) (part' state'))
    (hinstall : ∀ state state' piece piece', R state state' → Q piece piece' →
      R (install state piece) (install' state' piece')) :
    Agree R S (Step.on part install step) (Step.on part' install' step') := by
  intro traced traced' state state' hstates
  obtain ⟨hpieces, hresults⟩ := hstep traced traced' _ _ (hpart state state' hstates)
  exact ⟨hinstall state state' _ _ hstates hpieces, hresults⟩

protected theorem caught {R : σ → τ → Prop} {left : Step σ α} {right : Step τ α}
    (h : Agree R Eq left right) : Agree R Eq (Step.caught left) (Step.caught right) := by
  intro traced traced' state state' hstates
  obtain ⟨hreached, hresults⟩ := h traced traced' state state' hstates
  exact ⟨hreached, resultsAgree_eq_iff.mp hresults⟩

end Agree

/-! ### Attempts -/

/-- Steps one after another, each of them also behind one that has failed. -/
def attempts (step : ι → Step σ α) : List ι → Step σ (List (Except Fault α))
  | [] => pure []
  | i :: rest => do
      let result ← Step.caught (step i)
      let results ← attempts step rest
      pure (result :: results)

protected theorem Agree.attempts {R : σ → τ → Prop} {left : ι → Step σ α} {right : ι → Step τ α}
    (h : ∀ i, Agree R Eq (left i) (right i)) (l : List ι) :
    Agree R Eq (attempts left l) (attempts right l) := by
  induction l with
  | nil => exact .pure rfl
  | cons i rest ih => exact .bindSame (h i).caught fun _ => .bindSame ih fun _ => .pure rfl

/-- Attempts always come to an end, and what one of them fails for is what its step may fail for. -/
theorem Keeps.exists_attempts {P : σ → Prop} {F : Fault → Prop} {step : ι → Step σ α}
    (h : ∀ i, Keeps P F (step i)) (l : List ι) (traced : Bool) (state : σ) (hstate : P state) :
    ∃ results, (attempts step l traced state).result = .ok results ∧
      results.length = l.length ∧ ∀ fault, .error fault ∈ results → F fault := by
  induction l generalizing state with
  | nil => exact ⟨[], rfl, rfl, by simp⟩
  | cons i rest ih =>
      obtain ⟨hreached, hfault⟩ := h i traced state hstate
      obtain ⟨results, hresult, hlength, hfaults⟩ := ih _ hreached
      refine ⟨(step i traced state).result :: results, ?_, by simp [hlength], ?_⟩
      · rw [attempts, bind_of_ok (by rw [caught_apply]), caught_apply, bind_of_ok hresult]
        rfl
      · intro fault hmem
        rcases List.mem_cons.mp hmem with hfirst | hrest
        · exact hfault fault hfirst.symm
        · exact hfaults fault hrest

end Step

end ChipEight
