import ChipEight.Proofs.FrameContract
import ChipEight.Proofs.KeyWait
import ChipEight.Proofs.LifeCycle

/-!
The buzzer through a run. A round that is completed turns the buzzer up if the sound timer still
runs behind the tick of its frame, and off otherwise. So the last `FX18` of a run is heard for one
round less than the value that it stores, counted from its own round on.
-/

namespace ChipEight

/-- The effects by which rounds begin, and those that set the buzzer. -/
def Effect.marks : Effect → Bool
  | .frame _ | .setVolume _ => true
  | _ => false

theorem Instruction.sound_mem_writes_iff {i : Instruction} :
    .sound ∈ i.writes ↔ i.operation = .setSound := by
  unfold Instruction.writes
  cases i.operation <;> simp [-List.map_take]

namespace Machine

/-- The next cycle executes `FX18`, which stores a value. -/
def StoresSound (machine : Machine) (value : Nat) : Prop :=
  ∃ x : Fin 16, machine.Executes (0xF018 + 0x100 * x) ∧ machine.registers.get x = value

/-- Of the cycles that begin in some states, the last `FX18` stores a value. -/
def LastStores (starts : List Machine) (value : Nat) : Prop :=
  ∃ before setter behind, starts = before ++ setter :: behind ∧ setter.StoresSound value ∧
    ∀ start ∈ behind, ∀ other, ¬start.StoresSound other

variable {machine : Machine} {traced : Bool} {count : Int} {value : Nat}

/-! ### Frames -/

theorem sound_not_mem_writes (hquiet : ∀ value, ¬machine.StoresSound value) :
    .sound ∉ machine.writes := by
  cases hnext : machine.next? with
  | some i =>
      have hawaiting := awaiting_of_next? hnext
      simp only [writes_of_next? hnext, List.mem_cons, not_or, reduceCtorEq, not_false_eq_true,
        true_and, Instruction.sound_mem_writes_iff]
      rw [operation_of_next? hnext, Operation.ofWord_eq_setSound_iff]
      rintro ⟨hleading, hlow⟩
      let x : Fin 16 := ⟨machine.nextOpcode / 0x100 % 0x10, Nat.mod_lt _ (by decide)⟩
      have hword : machine.nextOpcode = 0xF018 + 0x100 * (machine.nextOpcode / 0x100 % 0x10) := by
        omega
      exact hquiet _ ⟨x, ⟨hawaiting, hword⟩, rfl⟩
  | none =>
      obtain ⟨register, hawaiting⟩ := awaiting_of_next?_eq_none hnext
      simp [writes, hawaiting]

theorem cycle_of_setSound (hmachine : machine.Whole) (traced : Bool) (x : Fin 16)
    (hword : machine.Executes (0xF018 + 0x100 * x)) :
    (cycle traced machine).state =
        { machine.fetched with
          timers := { machine.timers with sound := machine.registers.get x } } ∧
      (cycle traced machine).result = .ok () := by
  have hdigits : 0xF018 + 0x100 * x.val = 0x1000 * 0xF + 0x100 * x + 0x18 := by omega
  obtain ⟨hop, hx, -⟩ := Instruction.decode_low (by decide) (by decide) hdigits
  have hset : Operation.ofWord (0x1000 * 0xF + 0x18) = .setSound := rfl
  obtain ⟨hstate, hresult⟩ := cycle_of_next? hmachine.memory traced hword.next?
  have hregisters := (whole_fetched hmachine).registers
  rw [hstate, hresult]
  simp only [execute, Step.get_bind, hop, hset, hx, value_bind hregisters]
  exact ⟨rfl, rfl⟩

theorem sound_cycle_of_stores (hmachine : machine.Whole) (traced : Bool)
    (hstores : machine.StoresSound value) :
    (cycle traced machine).state.timers.sound = value := by
  obtain ⟨x, hword, rfl⟩ := hstores
  rw [(cycle_of_setSound hmachine traced x hword).1]

theorem sound_cycles_of_quiet (hmachine : machine.Whole) {count : Nat}
    (hquiet : ∀ start ∈ machine.cycleStarts traced count, ∀ value, ¬start.StoresSound value) :
    (cycles count traced machine).state.timers.sound = machine.timers.sound := by
  have hsame : Part.sound.Same machine (cycles count traced machine).state :=
    same_cycles hmachine fun start hstart => sound_not_mem_writes (hquiet start hstart)
  exact hsame

theorem sound_cycles_of_last (hmachine : machine.Whole) {count : Nat}
    (hok : (cycles count traced machine).result = .ok ())
    (hlast : LastStores (machine.cycleStarts traced count) value) :
    (cycles count traced machine).state.timers.sound = value := by
  obtain ⟨before, setter, behind, hstarts, hstores, hquiet⟩ := hlast
  -- On the cycles up to the last `FX18`; those behind it leave the timer alone.
  induction count generalizing machine before with
  | zero => simp [cycleStarts] at hstarts
  | succ count ih =>
      have hbehind := keepsWhole_cycle traced machine hmachine
      cases hresult : (cycle traced machine).result with
      | error fault =>
          rw [cycles, Step.bind_of_error hresult] at hok
          cases hok
      | ok done =>
          rw [cycles, Step.bind_of_ok hresult] at hok ⊢
          simp only [cycleStarts, hresult] at hstarts
          cases before with
          | nil =>
              obtain ⟨rfl, rfl⟩ := List.cons.inj hstarts
              rw [← sound_cycle_of_stores hmachine traced hstores]
              exact sound_cycles_of_quiet hbehind hquiet
          | cons first before =>
              exact ih hbehind hok before (List.cons.inj hstarts).2

theorem cycles_of_waiting {register : Int} (hkeypad : machine.keypad.Whole)
    (hawaiting : machine.awaiting = some register) (hup : machine.keypad.AllUp) (count : Nat) :
    cycles count traced machine = ⟨machine, [], .ok ()⟩ ∧
      machine.cycleStarts traced count = List.replicate count machine := by
  have hcycle : cycle traced machine = ⟨machine, [], .ok ()⟩ := by
    rw [cycle_of_awaiting traced hawaiting,
      resume_of_none hkeypad register traced (Keypad.lowest_eq_none_iff.mpr hup)]
  induction count with
  | zero => exact ⟨rfl, rfl⟩
  | succ count ih =>
      constructor
      · rw [cycles, Step.bind_of_ok (by rw [hcycle]), hcycle, ih.1]
        rfl
      · simp only [cycleStarts, hcycle, ih.2, List.replicate_succ]

theorem sound_frame_of_ok {dirty : Bool} (hok : (frame count traced machine).result = .ok dirty) :
    (cycles count.toNat traced machine).result = .ok () ∧
      (frame count traced machine).state.timers.sound
        = Timers.countDown (cycles count.toNat traced machine).state.timers.sound := by
  cases hresult : (cycles count.toNat traced machine).result with
  | error fault =>
      rw [(frame_of_error hresult).2] at hok
      cases hok
  | ok done =>
      rw [(frame_of_ok hresult).1]
      exact ⟨rfl, rfl⟩

end Machine

namespace Session

/-- The states in which the cycles of a round begin, if every round before it has been carried out.
-/
def roundStarts (machine : Machine) (traced : Bool) (cycles : Int) (batches : List (List Event))
    (k : Nat) : List Machine :=
  Machine.cycleStarts
    (machine.after traced
      (script cycles batches k ++ (eventsOf batches k).filterMap Event.command?))
    traced cycles.toNat

/-- How many rounds with these frames are completed, if the user quits in the last of them. -/
def Completes (frames : Nat → Outcome Machine Bool) (last completed : Nat) : Prop :=
  (∀ k < completed, ∃ dirty, (frames k).result = .ok dirty) ∧
    (completed = last + 1 ∨ completed ≤ last ∧ ∃ fault, (frames completed).result = .error fault)

/-- The volume that goes with the sound timer behind a frame. -/
def volumeBehind (buzzer : Buzzer) (frame : Outcome Machine Bool) : Float :=
  if buzzer.muted = false ∧ 0 < frame.state.timers.sound then buzzer.volume else 0.0

variable {machine : Machine} {traced : Bool} {cycles : Int} {batches : List (List Event)}
  {first value : Nat}

/-! ### The sound timer over the rounds -/

theorem sound_roundFrame_of_last (hmachine : machine.Whole) {dirty : Bool}
    (hok : (roundFrame machine traced cycles batches first).result = .ok dirty)
    (hlast : Machine.LastStores (roundStarts machine traced cycles batches first) value) :
    (roundFrame machine traced cycles batches first).state.timers.sound
      = Timers.countDown value := by
  obtain ⟨hcycles, hsound⟩ := Machine.sound_frame_of_ok hok
  rw [roundFrame, hsound, Machine.sound_cycles_of_last (hmachine.after traced _) hcycles hlast]

/-- Keys do not touch the timers, so the timer comes into a round as the one before has left it. -/
theorem sound_roundFrame_succ (hmachine : machine.Whole) {k : Nat} {dirty : Bool}
    (hok : (roundFrame machine traced cycles batches (k + 1)).result = .ok dirty)
    (hquiet : ∀ start ∈ roundStarts machine traced cycles batches (k + 1),
      ∀ other, ¬start.StoresSound other) :
    (roundFrame machine traced cycles batches (k + 1)).state.timers.sound
      = Timers.countDown (roundFrame machine traced cycles batches k).state.timers.sound := by
  obtain ⟨-, hsound⟩ := Machine.sound_frame_of_ok hok
  have hbefore := hmachine.after traced (script cycles batches (k + 1))
  rw [roundFrame, hsound, Machine.sound_cycles_of_quiet (hmachine.after traced _) hquiet,
    Machine.after_append, ← handle_eq_after hbefore, handle_eq hbefore.keypad, state_roundFrame]

theorem sound_roundFrame_add (hmachine : machine.Whole) {j : Nat}
    (hok : ∀ k ≤ first + j, ∃ dirty,
      (roundFrame machine traced cycles batches k).result = .ok dirty)
    (hlast : Machine.LastStores (roundStarts machine traced cycles batches first) value)
    (hquiet : ∀ k, first < k → k ≤ first + j →
      ∀ start ∈ roundStarts machine traced cycles batches k, ∀ other, ¬start.StoresSound other) :
    (roundFrame machine traced cycles batches (first + j)).state.timers.sound
      = max (value - 1 - j : Int) 0 := by
  induction j with
  | zero =>
      obtain ⟨dirty, hok⟩ := hok first (Nat.le_add_right first 0)
      rw [Nat.add_zero, sound_roundFrame_of_last hmachine hok hlast,
        Timers.countDown_eq_max (by omega)]
      simp
  | succ j ih =>
      obtain ⟨dirty, hround⟩ := hok (first + j + 1) (by omega)
      have hbefore := ih (fun k hk => hok k (by omega)) fun k hlt hk => hquiet k hlt (by omega)
      rw [← Nat.add_assoc,
        sound_roundFrame_succ hmachine hround (hquiet _ (by omega) (by omega)), hbefore,
        Timers.countDown_eq_max (by omega)]
      omega

/-- The last `FX18` is heard for one round less than the value that it stores. -/
theorem volumeBehind_of_last (hmachine : machine.Whole) {buzzer : Buzzer} {k : Nat}
    (hk : first ≤ k)
    (hok : ∀ j ≤ k, ∃ dirty, (roundFrame machine traced cycles batches j).result = .ok dirty)
    (hlast : Machine.LastStores (roundStarts machine traced cycles batches first) value)
    (hquiet : ∀ j, first < j → j ≤ k →
      ∀ start ∈ roundStarts machine traced cycles batches j, ∀ other, ¬start.StoresSound other) :
    volumeBehind buzzer (roundFrame machine traced cycles batches k)
      = if buzzer.muted = false ∧ k + 1 < first + value then buzzer.volume else 0.0 := by
  obtain ⟨j, rfl⟩ := Nat.exists_eq_add_of_le hk
  have hsound := sound_roundFrame_add hmachine hok hlast hquiet
  have hruns : 0 < max (value - 1 - j : Int) 0 ↔ first + j + 1 < first + value := by omega
  simp only [volumeBehind, hsound, hruns]

/-! ### What the rounds do to the buzzer -/

/-- The marks of a round with a buzzer that sounds. -/
def marksOf (fps : Option Int) (buzzer : Buzzer) (frame : Outcome Machine Bool) : List Effect :=
  match frame.result with
  | .ok _ => [.frame fps, .setVolume (volumeBehind buzzer frame)]
  | .error _ => [.frame fps]

variable {session : Session}

theorem level_beeping (buzzer : Buzzer) (frame : Outcome Machine Bool) :
    buzzer.level frame.state.beeping = volumeBehind buzzer frame := by
  unfold Buzzer.level volumeBehind Machine.beeping
  cases buzzer.muted <;> simp

theorem marks_round (haudible : session.buzzer.audible = true) (traced : Bool)
    (events : List Event) :
    (session.round traced events).effects.filter Effect.marks
      = marksOf session.fps session.buzzer (session.frameOf traced events) := by
  unfold marksOf
  cases hresult : (session.frameOf traced events).result with
  | error fault =>
      rw [round_of_error hresult]
      rfl
  | ok dirty =>
      rw [round_of_ok hresult, ← level_beeping, Buzzer.update, if_pos haudible]
      cases dirty <;> rfl

theorem marks_rounds (hmachine : session.machine.Whole)
    (haudible : session.buzzer.audible = true) (traced : Bool) (batches : List (List Event)) :
    ((session.rounds traced batches).flatMap Round.effects).filter Effect.marks =
      (List.range (session.rounds traced batches).length).flatMap fun k =>
        marksOf session.fps session.buzzer
          (roundFrame session.machine traced session.cyclesPerFrame batches k) := by
  rw [List.filter_flatMap, List.flatMap_def, List.flatMap_def]
  refine congrArg List.flatten (List.ext_getElem (by simp) fun k hk _ => ?_)
  have hround : k < (session.rounds traced batches).length := by simpa using hk
  obtain ⟨hfps, hbuzzer⟩ := settings_start hround
  have hmarks := marks_round (hbuzzer ▸ haudible) traced (eventsOf batches k)
  rw [hfps, hbuzzer, frameOf_start hmachine (Nat.le_of_lt hround),
    ← getElem_rounds hround] at hmarks
  simpa using hmarks

theorem completes_rounds (hmachine : session.machine.Whole) (traced : Bool)
    (batches : List (List Event)) :
    ∃ completed,
      Completes (roundFrame session.machine traced session.cyclesPerFrame batches)
        (quitRound batches) completed ∧
      (session.rounds traced batches).length
        = if completed = quitRound batches + 1 then completed else completed + 1 := by
  rcases frames_succeed_or_fail session.machine traced session.cyclesPerFrame batches
    (quitRound batches + 1) with hok | ⟨k, hk, fault, hbefore, hfault⟩
  · refine ⟨quitRound batches + 1, ⟨hok, .inl rfl⟩, ?_⟩
    rw [if_pos rfl]
    exact length_rounds hmachine (Nat.le_refl _) (fun k hk => hok k (Nat.lt_succ_of_lt hk))
      (.inl rfl)
  · have hquit := Nat.le_of_lt_succ hk
    refine ⟨k, ⟨hbefore, .inr ⟨hquit, fault, hfault⟩⟩, ?_⟩
    rw [if_neg (by omega)]
    exact length_rounds hmachine hquit hbefore (.inr ⟨fault, hfault⟩)

/-- The marks of all rounds: those that are completed set the buzzer, and a last one that is not
only begins. -/
def marksOfRounds (fps : Option Int) (buzzer : Buzzer) (frames : Nat → Outcome Machine Bool)
    (last completed : Nat) : List Effect :=
  ((List.range completed).flatMap fun k =>
      [.frame fps, .setVolume (volumeBehind buzzer (frames k))]) ++
    if completed = last + 1 then [] else [.frame fps]

theorem flatMap_marksOf (fps : Option Int) (buzzer : Buzzer) {frames : Nat → Outcome Machine Bool}
    {last completed : Nat} (hcompletes : Completes frames last completed) :
    ((List.range (if completed = last + 1 then completed else completed + 1)).flatMap fun k =>
        marksOf fps buzzer (frames k))
      = marksOfRounds fps buzzer frames last completed := by
  obtain ⟨hok, hend⟩ := hcompletes
  have hrounds : ((List.range completed).flatMap fun k => marksOf fps buzzer (frames k))
      = (List.range completed).flatMap fun k =>
        [.frame fps, .setVolume (volumeBehind buzzer (frames k))] := by
    rw [List.flatMap_def, List.flatMap_def]
    refine congrArg List.flatten (List.map_congr_left fun k hk => ?_)
    obtain ⟨dirty, hresult⟩ := hok k (List.mem_range.mp hk)
    rw [marksOf, hresult]
  rcases hend with hquit | ⟨hlast, fault, hfault⟩
  · rw [marksOfRounds, if_pos hquit, if_pos hquit, hrounds, List.append_nil]
  · rw [marksOfRounds, if_neg (by omega), if_neg (by omega), List.range_succ, List.flatMap_append,
      hrounds, List.flatMap_singleton, marksOf, hfault]

theorem marks_session (hmachine : session.machine.Whole)
    (haudible : session.buzzer.audible = true) (traced : Bool) (batches : List (List Event)) :
    let frames := roundFrame session.machine traced session.cyclesPerFrame batches
    ∃ completed, Completes frames (quitRound batches) completed ∧
      ((session.rounds traced batches).flatMap Round.effects).filter Effect.marks
        = marksOfRounds session.fps session.buzzer frames (quitRound batches) completed := by
  obtain ⟨completed, hcompletes, hlength⟩ := completes_rounds hmachine traced batches
  refine ⟨completed, hcompletes, ?_⟩
  rw [marks_rounds hmachine haudible, hlength,
    flatMap_marksOf session.fps session.buzzer hcompletes]

end Session

namespace Run

structure Beeps (arguments : List String) (surroundings : Surroundings) (run : Run) : Prop where
  muted : ∀ options, CommandLine.parse arguments = .ok options → options.mute = true →
    ∀ volume, .setVolume volume ∈ run.effects → volume = 0.0
  /-- Without a rate that the clock keeps no round is begun. -/
  unpaced : ∀ options file program screen wave, CommandLine.parse arguments = .ok options →
    Loads options surroundings file program → Equipped options surroundings screen (some wave) →
    surroundings.clock.keeps options.fps = false →
    run.effects.filter Effect.marks = [.setVolume 0.0]
  /-- Without a number of cycles no round is completed. -/
  uncycled : ∀ options file program screen wave, CommandLine.parse arguments = .ok options →
    Loads options surroundings file program → Equipped options surroundings screen (some wave) →
    surroundings.clock.keeps options.fps = true → options.cycles = none →
    run.effects.filter Effect.marks = [.setVolume 0.0, .frame options.fps]
  rounds : ∀ options file program screen wave volume cycles,
    CommandLine.parse arguments = .ok options → Loads options surroundings file program →
    Equipped options surroundings screen (some wave) → options.volume = some volume →
    surroundings.clock.keeps options.fps = true → options.cycles = some cycles →
    let clamped : Float := if 1.0 < volume then 1.0 else if 0.0 < volume then volume else 0.0
    let machine := (Machine.powerOn defaultStackCapacity surroundings.random).after
      surroundings.traced [.load program]
    let buzzer : Buzzer := ⟨clamped, options.mute, true⟩
    let frames := Session.roundFrame machine surroundings.traced cycles surroundings.batches
    let last := Session.quitRound surroundings.batches
    let starts := Session.roundStarts machine surroundings.traced cycles surroundings.batches
    ∃ completed, Session.Completes frames last completed ∧
      run.effects.filter Effect.marks
        = .setVolume 0.0 :: Session.marksOfRounds options.fps buzzer frames last completed ∧
      ∀ first value, Machine.LastStores (starts first) value →
        (∀ k, first < k → k < completed → ∀ start ∈ starts k, ∀ other, ¬start.StoresSound other) →
        ∀ k, first ≤ k → k < completed →
          Session.volumeBehind buzzer (frames k)
            = if options.mute = false ∧ k + 1 < first + value then clamped else 0.0

variable {arguments : List String} {options : CommandLine.Options} {surroundings : Surroundings}
  {file : String} {program : List Int} {screen : Screen} {wave : List UInt8}

/-! ### Opening -/

theorem marks_preparation (file : String) : (preparation file).filter Effect.marks = [] := rfl

theorem marks_opening (mixer : Mixer) : mixer.opening.filter Effect.marks = [] := by
  unfold Mixer.opening
  split <;> rfl

theorem marks_startSound (wave : List UInt8) :
    (Buzzer.startSound wave).filter Effect.marks = [.setVolume 0.0] := rfl

theorem buzzer_setUpOn (room : Room) (format : AudioFormat) (volume : Float) (muted : Bool)
    (done : List Effect) :
    (Buzzer.setUpOn room format volume muted done).buzzer.volume = Buzzer.clampVolume volume ∧
      (Buzzer.setUpOn room format volume muted done).buzzer.muted = muted := by
  unfold Buzzer.setUpOn
  split <;> exact ⟨rfl, rfl⟩

theorem buzzer_setUp (room : Room) (volume : Float) (muted : Bool) (mixer : Mixer) :
    (Buzzer.setUp room volume muted mixer).buzzer.volume = Buzzer.clampVolume volume ∧
      (Buzzer.setUp room volume muted mixer).buzzer.muted = muted := by
  cases hformat : mixer.format? with
  | some format =>
      rw [Buzzer.setUp_of_format hformat]
      exact buzzer_setUpOn room format volume muted mixer.opening
  | none =>
      obtain ⟨reason, hsetUp⟩ := Buzzer.setUp_of_no_format room hformat volume muted
      rw [hsetUp]
      exact ⟨rfl, rfl⟩

theorem buzzer_of_sound {room : Room} {mixer : Mixer}
    (hsound : mixer.format?.mapM (Buzzer.waveFor room) = .ok (some wave)) (volume : Float)
    (muted : Bool) :
    (Buzzer.setUp room volume muted mixer).buzzer = ⟨Buzzer.clampVolume volume, muted, true⟩ := by
  obtain ⟨-, -, haudible⟩ := Buzzer.setUp_of_sound hsound volume muted
  obtain ⟨hvolume, hmuted⟩ := buzzer_setUp room volume muted mixer
  generalize (Buzzer.setUp room volume muted mixer).buzzer = buzzer at haudible hvolume hmuted ⊢
  cases buzzer with
  | mk level silenced audible => simp_all

/-! ### With a muted buzzer -/

/-- No volume but 0 is set. -/
def Unheard (effects : List Effect) : Prop :=
  ∀ volume, .setVolume volume ∈ effects → volume = 0.0

theorem unheard_append_iff {first second : List Effect} :
    Unheard (first ++ second) ↔ Unheard first ∧ Unheard second := by
  simp only [Unheard, List.mem_append, or_imp, forall_and]

theorem unheard_setUpOn (room : Room) (format : AudioFormat) (volume : Float) (muted : Bool)
    {done : List Effect} (hdone : Unheard done) :
    Unheard (Buzzer.setUpOn room format volume muted done).effects := by
  unfold Buzzer.setUpOn
  split
  · refine unheard_append_iff.mpr ⟨hdone, fun level hlevel => ?_⟩
    simpa [Buzzer.startSound] using hlevel
  · exact hdone

theorem unheard_setUp (room : Room) (volume : Float) (muted : Bool) (mixer : Mixer) :
    Unheard (Buzzer.setUp room volume muted mixer).effects := by
  have hopening : Unheard mixer.opening := by
    unfold Mixer.opening
    split <;> simp [Unheard]
  cases hformat : mixer.format? with
  | some format =>
      rw [Buzzer.setUp_of_format hformat]
      exact unheard_setUpOn room format volume muted hopening
  | none =>
      obtain ⟨reason, hsetUp⟩ := Buzzer.setUp_of_no_format room hformat volume muted
      rwa [hsetUp]

theorem unheard_round {session : Session} (hmuted : session.buzzer.muted = true) (traced : Bool)
    (events : List Event) : Unheard (session.round traced events).effects := by
  have hlevel : ∀ beeping, Unheard (session.buzzer.update beeping) := by
    intro beeping volume hvolume
    unfold Buzzer.update at hvolume
    split at hvolume
    · simpa [Buzzer.level, hmuted] using hvolume
    · cases hvolume
  cases hresult : (session.frameOf traced events).result with
  | error fault =>
      rw [Session.round_of_error hresult]
      simp [Unheard]
  | ok dirty =>
      rw [Session.round_of_ok hresult]
      intro volume hvolume
      refine hlevel (session.frameOf traced events).state.beeping volume ?_
      cases dirty <;> simpa using hvolume

theorem unheard_rounds {session : Session} (hmuted : session.buzzer.muted = true) (traced : Bool)
    (batches : List (List Event)) :
    Unheard ((session.rounds traced batches).flatMap Round.effects) := by
  intro volume hvolume
  obtain ⟨round, hround, hmem⟩ := List.mem_flatMap.mp hvolume
  obtain ⟨k, hk, rfl⟩ := List.mem_iff_getElem.mp hround
  obtain ⟨-, hbuzzer⟩ := Session.settings_start hk
  rw [Session.getElem_rounds hk] at hmem
  exact unheard_round (hbuzzer ▸ hmuted) traced _ volume hmem

def Muffled : Except Run Opening → Prop
  | .error run => Unheard run.effects
  | .ok opening => Unheard opening.effects ∧ opening.session.buzzer.muted = true

theorem muffled_ofMachine? (hmute : options.mute = true) (file : String) (machine : Machine)
    (loading : List String) :
    Muffled (Opening.ofMachine? options file surroundings machine loading) := by
  have hpreparation : Unheard (preparation file) := by simp [Unheard, preparation]
  rw [Opening.ofMachine?]
  cases openScreen options surroundings.windows with
  | error ending => exact hpreparation
  | ok screen =>
      dsimp only
      rw [setUpBuzzer]
      cases options.volume with
      | none => exact hpreparation
      | some volume =>
          have hdone : Unheard (preparation file ++
              (Buzzer.setUp surroundings.room volume options.mute surroundings.mixer).effects) :=
            unheard_append_iff.mpr ⟨hpreparation, unheard_setUp _ volume _ _⟩
          have hopened : Unheard (preparation file ++
              (Buzzer.setUp surroundings.room volume options.mute surroundings.mixer).effects
                ++ [.flip screen.surface]) :=
            unheard_append_iff.mpr ⟨hdone, by simp [Unheard]⟩
          obtain ⟨-, hmuted⟩ :=
            buzzer_setUp surroundings.room volume options.mute surroundings.mixer
          dsimp only
          split
          · exact hdone
          · split
            · split
              · exact unheard_append_iff.mpr ⟨hopened, by simp [Unheard]⟩
              · exact ⟨hopened, hmuted.trans hmute⟩
            · exact unheard_append_iff.mpr ⟨hopened, by simp [Unheard]⟩

theorem unheard_ofArguments (hparse : CommandLine.parse arguments = .ok options)
    (hmute : options.mute = true) : Unheard (ofArguments arguments surroundings).effects := by
  have hmuffled : Muffled (Opening.ofArguments? arguments surroundings) := by
    rcases Opening.ofArguments?_cases arguments surroundings with
      ⟨run, hopening, heffects⟩ | ⟨options', file, machine, loading, hparse', -, hopening⟩
    · rw [hopening, Muffled, heffects]
      simp [Unheard]
    · rw [hparse] at hparse'
      rw [hopening, ← Except.ok.inj hparse']
      exact muffled_ofMachine? hmute file machine loading
  rw [ofArguments]
  cases hopening : Opening.ofArguments? arguments surroundings with
  | error run =>
      rw [hopening] at hmuffled
      exact hmuffled
  | ok opening =>
      rw [hopening] at hmuffled
      obtain ⟨hopened, hmuted⟩ := hmuffled
      simp only [ofOpening, unheard_append_iff]
      exact ⟨⟨hopened, unheard_rounds hmuted _ _⟩, by simp [Unheard]⟩

/-! ### All runs with a sound device -/

theorem marks_unpaced (hparse : CommandLine.parse arguments = .ok options)
    (hloads : Loads options surroundings file program)
    (hequipped : Equipped options surroundings screen (some wave))
    (hpace : surroundings.clock.keeps options.fps = false) :
    (ofArguments arguments surroundings).effects.filter Effect.marks = [.setVolume 0.0] := by
  obtain ⟨blocks, heffects, hgoesOn⟩ := opened_ofArguments hparse hloads hequipped
  rw [GoesOn, hpace] at hgoesOn
  obtain ⟨-, rfl⟩ := hgoesOn
  rw [heffects]
  simp only [List.filter_append, marks_preparation, marks_opening]
  rfl

theorem marks_uncycled (hparse : CommandLine.parse arguments = .ok options)
    (hloads : Loads options surroundings file program)
    (hequipped : Equipped options surroundings screen (some wave))
    (hpace : surroundings.clock.keeps options.fps = true) (hcycles : options.cycles = none) :
    (ofArguments arguments surroundings).effects.filter Effect.marks
      = [.setVolume 0.0, .frame options.fps] := by
  obtain ⟨blocks, heffects, hgoesOn⟩ := opened_ofArguments hparse hloads hequipped
  rw [GoesOn, if_pos hpace, hcycles] at hgoesOn
  obtain ⟨-, rfl⟩ := hgoesOn
  rw [heffects]
  simp only [List.filter_append, marks_preparation, marks_opening]
  rfl

theorem marks_ofArguments {volume : Float} {cycles : Int}
    (hparse : CommandLine.parse arguments = .ok options)
    (hloads : Loads options surroundings file program)
    (hequipped : Equipped options surroundings screen (some wave))
    (hvolume : options.volume = some volume)
    (hpace : surroundings.clock.keeps options.fps = true) (hcycles : options.cycles = some cycles) :
    let frames := Session.roundFrame
      ((Machine.powerOn defaultStackCapacity surroundings.random).after surroundings.traced
        [.load program])
      surroundings.traced cycles surroundings.batches
    let last := Session.quitRound surroundings.batches
    ∃ completed, Session.Completes frames last completed ∧
      (ofArguments arguments surroundings).effects.filter Effect.marks
        = .setVolume 0.0 :: Session.marksOfRounds options.fps
          ⟨Buzzer.clampVolume volume, options.mute, true⟩ frames last completed := by
  intro frames last
  obtain ⟨lines, hopening⟩ := ofArguments?_of_equipped hparse hloads hequipped hvolume hpace hcycles
  rw [buzzer_of_sound hequipped.sound_eq] at hopening
  let session : Session :=
    { machine := (Machine.powerOn defaultStackCapacity surroundings.random).after
        surroundings.traced [.load program]
      screen := screen
      buzzer := ⟨Buzzer.clampVolume volume, options.mute, true⟩
      fps := options.fps
      cyclesPerFrame := cycles }
  have hmachine : session.machine.Whole :=
    (Machine.whole_powerOn defaultStackCapacity surroundings.random).after surroundings.traced
      [.load program]
  have haudible : session.buzzer.audible = true := rfl
  obtain ⟨completed, hcompletes, hmarks⟩ :=
    Session.marks_session hmachine haudible surroundings.traced surroundings.batches
  have heffects : (ofArguments arguments surroundings).effects
      = preparation file ++ (surroundings.mixer.opening ++ Buzzer.startSound wave ++ []) ++
        [.flip screen.surface] ++
        (session.rounds surroundings.traced surroundings.batches).flatMap Round.effects ++
        [.quit] := by
    rw [ofArguments, hopening]
    simp [ofOpening, session]
  refine ⟨completed, hcompletes, ?_⟩
  rw [heffects]
  simp only [List.filter_append, marks_preparation, marks_opening, marks_startSound, hmarks]
  simp [Effect.marks, session, frames, last]

theorem beeps_ofArguments (arguments : List String) (surroundings : Surroundings) :
    (ofArguments arguments surroundings).Beeps arguments surroundings where
  muted := fun _ hparse hmute => unheard_ofArguments hparse hmute
  unpaced := fun _ _ _ _ _ hparse hloads hequipped hpace =>
    marks_unpaced hparse hloads hequipped hpace
  uncycled := fun _ _ _ _ _ hparse hloads hequipped hpace hcycles =>
    marks_uncycled hparse hloads hequipped hpace hcycles
  rounds := by
    intro options file program screen wave volume cycles hparse hloads hequipped hvolume hpace
      hcycles clamped machine buzzer frames last starts
    obtain ⟨completed, hcompletes, hmarks⟩ :=
      marks_ofArguments hparse hloads hequipped hvolume hpace hcycles
    rw [Buzzer.clampVolume_eq] at hmarks
    refine ⟨completed, hcompletes, hmarks, ?_⟩
    intro first value hlast hquiet k hfirst hk
    have hmachine := (Machine.whole_powerOn defaultStackCapacity surroundings.random).after
      surroundings.traced [.load program]
    exact Session.volumeBehind_of_last hmachine hfirst
      (fun j hj => hcompletes.1 j (Nat.lt_of_le_of_lt hj hk)) hlast
      fun j hlt hj => hquiet j hlt (Nat.lt_of_le_of_lt hj hk)

/-- A program that puts 2 into V0, sets the sound timer to it and then waits for a key. -/
theorem cycles_of_tone {start : Machine} (hstart : start.Whole)
    (hmemory : start.memory = Memory.initial.install #[0x60, 0x02, 0xF0, 0x18, 0xF0, 0x0A])
    (hpc : start.pc = programStart) (hawaiting : start.awaiting = none)
    (hup : start.keypad.AllUp) :
    Machine.LastStores (start.cycleStarts false (3 : Int).toNat) 2 ∧
      (Machine.cycles (3 : Int).toNat false start).result = .ok () ∧
      (Machine.cycles (3 : Int).toNat false start).state.awaiting = some 0 ∧
      (Machine.cycles (3 : Int).toNat false start).state.keypad.AllUp := by
  have hpc' : start.pc = (programStart + 0 : Nat) := hpc
  have hload : start.Executes (0x6000 + 0x100 * (0 : Fin 16) + 0x02) :=
    ⟨hawaiting, Machine.nextOpcode_of_install Memory.whole_initial hmemory hpc' (by decide) rfl rfl⟩
  obtain ⟨hloaded, hloads⟩ := Machine.cycle_of_loadByte hstart false 0 (by decide) hload
  obtain ⟨hset, hpcLoaded, hregister⟩ := Machine.executes_behind_loadByte hstart 0
    (by decide : 0x02 < 0x100) hload Memory.whole_initial hmemory hpc (by decide) rfl rfl
  rw [Machine.after, Machine.after, Machine.state_perform_cycle] at hset hpcLoaded hregister
  have hmemoryLoaded : (Machine.cycle false start).state.memory
      = Memory.initial.install #[0x60, 0x02, 0xF0, 0x18, 0xF0, 0x0A] := by
    rw [hloaded, ← hmemory]
    rfl
  have hwholeLoaded := Machine.keepsWhole_cycle false start hstart
  have hupLoaded : (Machine.cycle false start).state.keypad.AllUp := by
    rwa [Machine.keypad_cycle hstart]
  obtain ⟨hsounded, hsounds⟩ := Machine.cycle_of_setSound hwholeLoaded false 0 hset
  have hwholeSet := Machine.keepsWhole_cycle false _ hwholeLoaded
  have hwait : (Machine.cycle false (Machine.cycle false start).state).state.Executes 0xF00A := by
    refine (Machine.executes_behind 2 _ Memory.whole_initial hmemoryLoaded hpcLoaded (by decide)
      rfl rfl ?_ ?_ ?_).1
    · rw [hsounded]
      rfl
    · rw [hsounded]
    · rw [hsounded]
      exact hset.1
  have hupSet : (Machine.cycle false (Machine.cycle false start).state).state.keypad.AllUp := by
    rwa [Machine.keypad_cycle hwholeLoaded]
  obtain ⟨hwaiting, hwaits⟩ :=
    Machine.cycle_awaitKey_of_allUp hwholeSet false hwait.next? rfl hupSet
  have hthree : (3 : Int).toNat = 3 := rfl
  simp only [hthree, Machine.cycles, Machine.cycleStarts, Step.bind_of_ok hloads,
    Step.bind_of_ok hsounds, Step.bind_of_ok hwaits, hloads, hsounds, hwaits, Step.pure_apply,
    hwaiting, true_and]
  refine ⟨⟨[start], _, [_], rfl, ⟨0, hset, hregister⟩, ?_⟩, rfl, hupSet⟩
  rintro later hlater value ⟨x, hword, -⟩
  rw [List.mem_singleton.mp hlater] at hword
  have hdigits := hwait.2.symm.trans hword.2
  omega

/-- Its first round leaves the machine waiting, so the second one does nothing but tick. -/
theorem rounds_of_tone {start : Machine} (hstart : start.Whole)
    (hmemory : start.memory = Memory.initial.install #[0x60, 0x02, 0xF0, 0x18, 0xF0, 0x0A])
    (hpc : start.pc = programStart) (hawaiting : start.awaiting = none)
    (hup : start.keypad.AllUp) :
    (∀ k < 2, ∃ dirty, (Session.roundFrame start false 3 [[.other]] k).result = .ok dirty) ∧
      Machine.LastStores (Session.roundStarts start false 3 [[.other]] 0) 2 ∧
      ∀ later ∈ Session.roundStarts start false 3 [[.other]] 1, ∀ other,
        ¬later.StoresSound other := by
  obtain ⟨hlast, hcycles, hwaits, hreleased⟩ :=
    cycles_of_tone hstart hmemory hpc hawaiting hup
  obtain ⟨hstate, hresult⟩ := Machine.frame_of_ok hcycles
  have hwhole := Machine.keepsWhole_frame 3 false start hstart
  have hbegun : start.after false (Session.script 3 [[.other]] 1)
      = (Machine.frame 3 false start).state := Machine.state_perform_frame 3
  have hwaits' : (Machine.frame 3 false start).state.awaiting = some 0 := by
    rw [hstate]
    exact hwaits
  have hreleased' : (Machine.frame 3 false start).state.keypad.AllUp := by
    rw [hstate]
    exact hreleased
  obtain ⟨hpolls, hstarts⟩ :=
    @Machine.cycles_of_waiting _ false _ hwhole.keypad hwaits' hreleased' (3 : Int).toNat
  refine ⟨?_, hlast, ?_⟩
  · intro k hk
    rcases Nat.le_one_iff_eq_zero_or_eq_one.mp (Nat.le_of_lt_succ hk) with rfl | rfl
    · exact ⟨_, hresult⟩
    · rw [Session.roundFrame, Machine.after_append, hbegun]
      exact ⟨_, (Machine.frame_of_ok (congrArg Outcome.result hpolls)).2⟩
  · rintro later hlater other ⟨x, hword, -⟩
    rw [Session.roundStarts, Machine.after_append, hbegun] at hlater
    have hsame : later = (Machine.frame 3 false start).state :=
      List.eq_of_mem_replicate (hstarts ▸ hlater)
    rw [hsame] at hword
    cases hwaits'.symm.trans hword.1

/-- A program that puts 2 into V0, sets the sound timer to it and waits for a key, with three cycles
in each of two rounds. -/
theorem beeps_ofArguments_waiting :
    let arguments := ["-f", "beep.ch8", "-c", "3", "-s", "2"]
    let surroundings : Surroundings :=
      { read := fun _ => .ok [0x60, 0x02, 0xF0, 0x18, 0xF0, 0x0A]
        room := .ample
        windows := .boundless
        mixer := ⟨none, .ok⟩
        clock := .doubles
        random := .cycling #[]
        batches := [[.other]]
        traced := false }
    (ofArguments arguments surroundings).effects.filter Effect.marks =
      [.setVolume 0.0, .frame (some 60), .setVolume 0.3, .frame (some 60), .setVolume 0.0] := by
  intro arguments surroundings
  let options : CommandLine.Options :=
    { file := some "beep.ch8"
      cycles := some 3
      fps := some defaultFramesPerSecond
      scale := some 2
      mute := false
      volume := some defaultVolume }
  have hparse : CommandLine.parse arguments = .ok options := rfl
  have hloads : Loads options surroundings "beep.ch8" [0x60, 0x02, 0xF0, 0x18, 0xF0, 0x0A] :=
    ⟨rfl, rfl, by decide, by decide⟩
  obtain ⟨wave, hwave⟩ : ∃ wave,
      surroundings.mixer.format?.mapM (Buzzer.waveFor .ample) = .ok (some wave) := ⟨_, rfl⟩
  obtain ⟨screen, hscreen⟩ : ∃ screen,
      Screen.open? surroundings.windows screenWidth screenHeight 2 = .ok screen := ⟨_, rfl⟩
  have hequipped : Equipped options surroundings screen (some wave) :=
    ⟨⟨2, rfl, hscreen⟩, ⟨_, rfl⟩, hwave⟩
  let start := (Machine.powerOn 16 (.cycling #[])).after false
    [.load [0x60, 0x02, 0xF0, 0x18, 0xF0, 0x0A]]
  have hstart : start.Whole := (Machine.whole_powerOn 16 (.cycling #[])).after false _
  obtain ⟨hok, hlast, hquiet⟩ := rounds_of_tone hstart rfl rfl rfl (by decide)
  obtain ⟨completed, hcompletes, hmarks, hfades⟩ :=
    (beeps_ofArguments arguments surroundings).rounds options _ _ _ _ defaultVolume 3 hparse hloads
      hequipped rfl rfl rfl
  have hquit : Session.quitRound [[Event.other]] = 1 := rfl
  have htwo : completed = 2 := by
    rcases hcompletes.2 with hall | ⟨hbefore, fault, hfault⟩
    · exact hall.trans (congrArg (· + 1) hquit)
    · obtain ⟨dirty, hdone⟩ := hok completed (by rw [hquit] at hbefore; omega)
      cases hdone.symm.trans hfault
  subst htwo
  have hfade := hfades 0 2 hlast fun k hfirst hk => by
    rw [show k = 1 by omega]
    exact hquiet
  have hheard := hfade 0 (by decide) (by decide)
  have hsilent := hfade 1 (by decide) (by decide)
  have hclamped : (if 1.0 < defaultVolume then 1.0
      else if 0.0 < defaultVolume then defaultVolume else 0.0) = 0.3 := by
    rw [if_neg (by decide), if_pos (by decide)]
    rfl
  rw [hclamped] at hheard hsilent
  rw [hmarks, hclamped]
  simp [Session.marksOfRounds, List.range_succ, hheard, hsilent, hquit, surroundings,
    options, defaultFramesPerSecond]

end Run

end ChipEight
