import ChipEight.Proofs.Wholeness
import ChipEight.Session

/-!
The rounds of a session one by one: what a round comes to, and that each begins where the one before
it has left the session. None but the last is cut short by a fault.
-/

namespace ChipEight

/-! ### Effects on the sound device -/

def Effect.sounds : Effect → Bool
  | .openAudio _ _ | .makeSound _ | .setVolume _ | .play _ => true
  | _ => false

namespace Buzzer

theorem sounds_update (buzzer : Buzzer) (beeping : Bool) :
    ∀ effect ∈ buzzer.update beeping, effect.sounds := by
  unfold update
  split
  · simp [Effect.sounds]
  · simp

theorem sounds_setUpOn (room : Room) (format : AudioFormat) (volume : Float) (muted : Bool)
    {done : List Effect} (hdone : ∀ effect ∈ done, effect.sounds) :
    ∀ effect ∈ (setUpOn room format volume muted done).effects, effect.sounds := by
  unfold setUpOn
  split
  · intro effect heffect
    rcases List.mem_append.mp heffect with hbefore | hstart
    · exact hdone effect hbefore
    · simp only [startSound, List.mem_cons, List.not_mem_nil, or_false] at hstart
      rcases hstart with rfl | rfl | rfl
      · rfl
      · rfl
      · rfl
  · exact hdone

theorem sounds_setUp (room : Room) (volume : Float) (muted : Bool) (mixer : Mixer) :
    ∀ effect ∈ (setUp room volume muted mixer).effects, effect.sounds := by
  unfold setUp
  split
  · exact sounds_setUpOn room _ volume muted (by simp)
  · dsimp only
    split
    · exact sounds_setUpOn room _ volume muted (by simp [Effect.sounds])
    · simp [Effect.sounds]

end Buzzer

namespace Session

/-! ### Rounds -/

variable {session : Session} {traced : Bool} {batches : List (List Event)}

/-- What the machine of a session does in a round. -/
def frameOf (session : Session) (traced : Bool) (events : List Event) : Outcome Machine Bool :=
  turn session.cyclesPerFrame events traced session.machine

/-- The events of a round always get through to the keypad, and to nothing else. -/
theorem handle_eq {machine : Machine} (hkeypad : machine.keypad.Whole) (traced : Bool)
    (events : List Event) :
    handle events traced machine =
      ⟨{ machine with keypad := events.foldl Event.applied machine.keypad }, [], .ok ()⟩ := by
  rw [handle, Machine.onKeypad, Step.on_apply, Event.applyAll_eq hkeypad]

theorem state_handle_append {machine : Machine} (hkeypad : machine.keypad.Whole) (traced : Bool)
    (first second : List Event) :
    (handle (first ++ second) traced machine).state =
      (handle second traced (handle first traced machine).state).state := by
  rw [handle_eq hkeypad, handle_eq hkeypad, handle_eq (Event.whole_foldl_applied hkeypad first),
    List.foldl_append]

theorem keepsWhole_handle (events : List Event) : Machine.KeepsWhole (handle events) := by
  intro traced machine hmachine
  rw [handle_eq hmachine.keypad]
  exact { hmachine with keypad := Event.whole_foldl_applied hmachine.keypad events }

/-- A round of a whole machine comes to what the frame behind its events comes to. -/
theorem frameOf_eq (hmachine : session.machine.Whole) (traced : Bool) (events : List Event) :
    session.frameOf traced events =
      Machine.frame session.cyclesPerFrame traced
        (handle events traced session.machine).state := by
  have hnotes : (handle events traced session.machine).notes = [] := by
    rw [handle_eq hmachine.keypad]
  rw [frameOf, turn, Step.bind_of_ok (by rw [handle_eq hmachine.keypad]), hnotes]
  rfl

theorem whole_frameOf (hmachine : session.machine.Whole) (traced : Bool) (events : List Event) :
    (session.frameOf traced events).state.Whole :=
  ((keepsWhole_handle events).bind fun _ => Machine.keepsWhole_frame session.cyclesPerFrame)
    traced session.machine hmachine

theorem round_of_ok {events : List Event} {dirty : Bool}
    (hresult : (session.frameOf traced events).result = .ok dirty) :
    let machine := (session.frameOf traced events).state
    let screen := if dirty then session.screen.render machine.display else session.screen
    session.round traced events =
      ⟨{ session with machine := machine, screen := screen },
        .frame session.fps :: ((if dirty then [.flip screen.surface] else []) ++
          session.buzzer.update machine.beeping),
        (session.frameOf traced events).notes, none⟩ := by
  rw [frameOf] at hresult ⊢
  simp only [round, hresult]
  rfl

theorem round_of_error {events : List Event} {fault : Fault}
    (hresult : (session.frameOf traced events).result = .error fault) :
    session.round traced events =
      ⟨{ session with machine := (session.frameOf traced events).state }, [.frame session.fps],
        (session.frameOf traced events).notes, some fault⟩ := by
  rw [frameOf] at hresult ⊢
  simp only [round, hresult]

theorem whole_round (hmachine : session.machine.Whole) (traced : Bool) (events : List Event) :
    (session.round traced events).session.machine.Whole := by
  have hwhole := whole_frameOf hmachine traced events
  cases hresult : (session.frameOf traced events).result with
  | ok dirty => rwa [round_of_ok hresult]
  | error fault => rwa [round_of_error hresult]

/-- The events that come in for a round; past the last batch the user quits. -/
def eventsOf (batches : List (List Event)) (k : Nat) : List Event :=
  (batches[k]?).getD [.quit]

def start (session : Session) (traced : Bool) (batches : List (List Event)) (k : Nat) : Session :=
  session.after ((session.rounds traced batches).take k)

/-- If the first round lets another one follow, the rounds behind it are those of the session that
it leaves. -/
theorem rounds_cons (session : Session) (traced : Bool) (events : List Event)
    (rest : List (List Event)) :
    session.rounds traced (events :: rest) = [session.round traced events] ∨
      (session.round traced events).fault = none ∧
        session.rounds traced (events :: rest) = session.round traced events ::
          (session.round traced events).session.rounds traced rest := by
  rw [rounds]
  split
  · rename_i hon
    rw [Bool.and_eq_true, Option.isNone_iff_eq_none] at hon
    exact .inr ⟨hon.1, rfl⟩
  · exact .inl rfl

theorem rounds_ne_nil : session.rounds traced batches ≠ [] := by
  cases batches with
  | nil => simp [rounds]
  | cons events rest =>
      rcases rounds_cons session traced events rest with hlast | ⟨-, hmore⟩
      · simp [hlast]
      · simp [hmore]

/-- Every round is the one that its events make of the session at its beginning. -/
theorem getElem_rounds {k : Nat} (hk : k < (session.rounds traced batches).length) :
    (session.rounds traced batches)[k]
      = (session.start traced batches k).round traced (eventsOf batches k) := by
  unfold start
  induction batches generalizing session k with
  | nil =>
      have hzero : k = 0 := by simpa [rounds] using hk
      subst hzero
      rfl
  | cons events rest ih =>
      rcases rounds_cons session traced events rest with
        hlast | ⟨-, hmore⟩
      · have hzero : k = 0 := by simpa [hlast] using hk
        subst hzero
        simp only [hlast]
        rfl
      · simp only [hmore] at hk ⊢
        cases k with
        | zero => rfl
        | succ k => exact ih (Nat.lt_of_succ_lt_succ hk)

theorem fault_of_not_last {k : Nat} (hk : k + 1 < (session.rounds traced batches).length) :
    (session.rounds traced batches)[k].fault = none := by
  induction batches generalizing session k with
  | nil => simp [rounds] at hk
  | cons events rest ih =>
      rcases rounds_cons session traced events rest with
        hlast | ⟨hfault, hmore⟩
      · simp [hlast] at hk
      · simp only [hmore] at hk ⊢
        cases k with
        | zero => exact hfault
        | succ k => exact ih (Nat.lt_of_succ_lt_succ hk)

theorem start_succ {k : Nat} (hk : k < (session.rounds traced batches).length) :
    session.start traced batches (k + 1) = (session.rounds traced batches)[k].session := by
  rw [start, after, List.take_succ_eq_append_getElem hk, List.foldl_append]
  rfl

/-- What holds of a session, and is kept by rounds that no fault cuts short, holds at the beginning
of every round. -/
theorem invariant {P : Session → Prop} (hsession : P session)
    (hround : ∀ session events, P session → (session.round traced events).fault = none →
      P (session.round traced events).session) {k : Nat}
    (hk : k < (session.rounds traced batches).length) : P (session.start traced batches k) := by
  induction k with
  | zero => exact hsession
  | succ k ih =>
      have hbefore := ih (by omega)
      have hfault := fault_of_not_last hk
      rw [start_succ (by omega)]
      rw [getElem_rounds (by omega)] at hfault ⊢
      exact hround _ _ hbefore hfault

/-- If no fault cuts the last round short either, it holds in the end as well. -/
theorem invariant_after {P : Session → Prop} (hsession : P session)
    (hround : ∀ session events, P session → (session.round traced events).fault = none →
      P (session.round traced events).session)
    (hlast : ∀ round, (session.rounds traced batches).getLast? = some round → round.fault = none) :
    P (session.after (session.rounds traced batches)) := by
  have hpos : 0 < (session.rounds traced batches).length :=
    List.length_pos_iff.mpr rounds_ne_nil
  obtain ⟨k, hlength⟩ : ∃ k, (session.rounds traced batches).length = k + 1 :=
    ⟨(session.rounds traced batches).length - 1, by omega⟩
  have hk : k < (session.rounds traced batches).length := by omega
  have hfault := hlast (session.rounds traced batches)[k] (by
    rw [List.getLast?_eq_getElem?, hlength, Nat.add_sub_cancel, List.getElem?_eq_getElem hk])
  have hend : session.after (session.rounds traced batches)
      = session.start traced batches (k + 1) := by
    rw [start, ← hlength, List.take_length]
  have hbefore := invariant hsession hround hk
  rw [hend, start_succ hk]
  rw [getElem_rounds hk] at hfault ⊢
  exact hround _ _ hbefore hfault

end Session

end ChipEight
