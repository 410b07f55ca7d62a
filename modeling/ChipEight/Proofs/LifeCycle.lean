import ChipEight.Proofs.Driving
import ChipEight.Proofs.Loading
import Mathlib.Data.List.Forall2

/-!
The life of a run as its effects tell it. Nothing is done before the program is loaded; then the
window and the sound device are opened, every round leaves a block of effects, and leaving the
rounds, by quitting or by a crash, is the last thing done.
-/

namespace ChipEight

namespace Mixer

def format? (mixer : Mixer) : Option AudioFormat :=
  match mixer.running with
  | some format => some format
  | none => (mixer.opened preferred).toOption

/-- The opening of the sound device, which is left out if it runs already. -/
def opening (mixer : Mixer) : List Effect :=
  if mixer.running.isNone then [.openAudio preferred preferredBuffer] else []

end Mixer

def Effect.isSound : Effect → Bool
  | .makeSound _ | .setVolume _ | .play _ => true
  | _ => false

def Silent (effects : List Effect) : Prop :=
  ∀ effect ∈ effects, effect.isSound = false

namespace Run

structure Loads (options : CommandLine.Options) (surroundings : Surroundings) (file : String)
    (program : List Int) : Prop where
  file_eq : options.file = some file
  read : surroundings.read file = .ok program
  length_le : program.length ≤ programLimit
  bytes : ∀ value ∈ program, IsByte value

/-- The window that a run opens, and the sound that it makes if there is a sound device. -/
structure Equipped (options : CommandLine.Options) (surroundings : Surroundings) (screen : Screen)
    (sound : Option (List UInt8)) : Prop where
  window : ∃ scale, options.scale = some scale ∧
    Screen.open? surroundings.windows screenWidth screenHeight scale = .ok screen
  volume : ∃ volume, options.volume = some volume
  sound_eq : surroundings.mixer.format?.mapM (Buzzer.waveFor surroundings.room) = .ok sound

end Run

namespace Session

/-- The effects of a round whose frame has come to a result. -/
def IsBlock (fps : Option Int) (audible : Bool) (result : Except Fault Bool)
    (effects : List Effect) : Prop :=
  match result with
  | .ok dirty => ∃ surface volume,
      effects = .frame fps :: ((if dirty then [.flip surface] else []) ++
        if audible then [.setVolume volume] else [])
  | .error _ => effects = [.frame fps]

def Blocks (fps : Option Int) (audible : Bool) (frames : Nat → Outcome Machine Bool) (count : Nat)
    (blocks : List (List Effect)) : Prop :=
  List.Forall₂ (IsBlock fps audible) ((List.range count).map fun k => (frames k).result) blocks

/-- How rounds with these frames end, and the blocks that they leave, if the user quits in the last
of them. -/
inductive Course (fps : Option Int) (audible : Bool) (frames : Nat → Outcome Machine Bool)
    (last : Nat) : Ending → List (List Effect) → Prop
  | completed {blocks : List (List Effect)}
      (hok : ∀ k ≤ last, ∃ dirty, (frames k).result = .ok dirty)
      (hblocks : Blocks fps audible frames (last + 1) blocks) :
      Course fps audible frames last .completed blocks
  | crashed {k : Nat} {fault : Fault} {blocks : List (List Effect)} (hk : k ≤ last)
      (hbefore : ∀ j < k, ∃ dirty, (frames j).result = .ok dirty)
      (hfault : (frames k).result = .error fault)
      (hblocks : Blocks fps audible frames (k + 1) blocks) :
      Course fps audible frames last (.crashed fault (frames k).state) blocks

end Session

namespace Run

/-- How a run ends that has come to its first round, and the blocks that its rounds leave. If the
clock cannot keep its rate no round begins, and without a number of cycles the first gets no further
than its beginning. -/
def GoesOn (options : CommandLine.Options) (surroundings : Surroundings) (machine : Machine)
    (audible : Bool) (ending : Ending) (blocks : List (List Effect)) : Prop :=
  if surroundings.clock.keeps options.fps then
    match options.cycles with
    | none => ending = .unset .cycles ∧ blocks = [[.frame options.fps]]
    | some cycles =>
        Session.Course options.fps audible
          (Session.roundFrame machine surroundings.traced cycles surroundings.batches)
          (Session.quitRound surroundings.batches) ending blocks
  else ending = .unpaced ∧ blocks = []

/-- What the effects of a run are, by how far it comes. -/
structure LifeCycle (arguments : List String) (surroundings : Surroundings) (run : Run) :
    Prop where
  silent : surroundings.mixer.format? = none → Silent run.effects
  halted : ∀ halt, CommandLine.parse arguments = .error halt →
    run.effects = [] ∧ run.machine = none
  unloaded : ∀ options, CommandLine.parse arguments = .ok options →
    (∀ file program, ¬Loads options surroundings file program) →
    run.effects = [] ∧
      run.machine = some (.powerOn defaultStackCapacity surroundings.random)
  opened : ∀ options file program screen sound, CommandLine.parse arguments = .ok options →
    Loads options surroundings file program → Equipped options surroundings screen sound →
    ∃ blocks,
      run.effects = preparation file ++ surroundings.mixer.opening ++
        sound.toList.flatMap Buzzer.startSound ++ [.flip screen.surface] ++ blocks.flatten ++
        [.quit] ∧
      GoesOn options surroundings
        ((Machine.powerOn defaultStackCapacity surroundings.random).after surroundings.traced
          [.load program])
        sound.isSome run.ending blocks

end Run

/-! ### Opening -/

namespace Buzzer

variable {room : Room} {mixer : Mixer} {sound : Option (List UInt8)}

/-- A device that runs already and one that has to be opened are set up alike. -/
theorem setUp_of_format {format : AudioFormat} (hformat : mixer.format? = some format)
    (volume : Float) (muted : Bool) :
    setUp room volume muted mixer = setUpOn room format volume muted mixer.opening := by
  unfold Mixer.format? at hformat
  cases hrunning : mixer.running with
  | some running =>
      obtain rfl : running = format := by simpa [hrunning] using hformat
      simp [setUp, Mixer.opening, hrunning]
  | none =>
      cases hopened : mixer.opened Mixer.preferred with
      | ok opened =>
          obtain rfl : opened = format := by
            simpa [hrunning, hopened, Except.toOption] using hformat
          simp [setUp, Mixer.opening, hrunning, hopened]
      | error reason => simp [hrunning, hopened, Except.toOption] at hformat

theorem setUp_of_no_format (room : Room) (hformat : mixer.format? = none) (volume : Float)
    (muted : Bool) :
    ∃ reason, setUp room volume muted mixer =
      ⟨⟨clampVolume volume, muted, false⟩, mixer.opening, some reason, none⟩ := by
  unfold Mixer.format? at hformat
  cases hrunning : mixer.running with
  | some running => simp [hrunning] at hformat
  | none =>
      cases hopened : mixer.opened Mixer.preferred with
      | ok opened => simp [hrunning, hopened, Except.toOption] at hformat
      | error reason => exact ⟨reason, by simp [setUp, Mixer.opening, hrunning, hopened]⟩

/-- A sound device that has a wave makes its sound; where there is none nothing is made. -/
theorem setUp_of_sound (hsound : mixer.format?.mapM (waveFor room) = .ok sound) (volume : Float)
    (muted : Bool) :
    (setUp room volume muted mixer).fault = none ∧
      (setUp room volume muted mixer).effects
        = mixer.opening ++ sound.toList.flatMap startSound ∧
      (setUp room volume muted mixer).buzzer.audible = sound.isSome := by
  cases hformat : mixer.format? with
  | some format =>
      rw [hformat] at hsound
      rw [setUp_of_format hformat, setUpOn]
      cases hwave : waveFor room format with
      | error fault => simp [hwave] at hsound
      | ok wave =>
          obtain rfl : sound = some wave := by simpa [hwave, eq_comm] using hsound
          simp
  | none =>
      obtain ⟨reason, hsetUp⟩ := setUp_of_no_format room hformat volume muted
      obtain rfl : sound = none := by
        rw [hformat] at hsound
        simpa [pure, Except.pure, eq_comm] using hsound
      simp [hsetUp]

end Buzzer

namespace Session

variable {session : Session} {traced : Bool} {batches : List (List Event)}

theorem isBlock_round (session : Session) (traced : Bool) (events : List Event) :
    IsBlock session.fps session.buzzer.audible (session.frameOf traced events).result
      (session.round traced events).effects := by
  cases hresult : (session.frameOf traced events).result with
  | error fault =>
      rw [round_of_error hresult]
      rfl
  | ok dirty =>
      rw [round_of_ok hresult]
      exact ⟨_, session.buzzer.level (session.frameOf traced events).state.beeping, rfl⟩

theorem settings_round (session : Session) (traced : Bool) (events : List Event) :
    (session.round traced events).session.fps = session.fps ∧
      (session.round traced events).session.buzzer = session.buzzer := by
  cases hresult : (session.frameOf traced events).result with
  | ok dirty => rw [round_of_ok hresult]; exact ⟨rfl, rfl⟩
  | error fault => rw [round_of_error hresult]; exact ⟨rfl, rfl⟩

/-- No round changes how fast frames come or what the buzzer is. -/
theorem settings_start {k : Nat} (hk : k < (session.rounds traced batches).length) :
    (session.start traced batches k).fps = session.fps ∧
      (session.start traced batches k).buzzer = session.buzzer := by
  refine invariant (P := fun later => later.fps = session.fps ∧ later.buzzer = session.buzzer)
    ⟨rfl, rfl⟩ ?_ hk
  intro later events hlater _
  obtain ⟨hfps, hbuzzer⟩ := settings_round later traced events
  rw [hfps, hbuzzer]
  exact hlater

theorem isBlock_getElem_rounds (hmachine : session.machine.Whole) {k : Nat}
    (hk : k < (session.rounds traced batches).length) :
    IsBlock session.fps session.buzzer.audible
      (roundFrame session.machine traced session.cyclesPerFrame batches k).result
      (session.rounds traced batches)[k].effects := by
  have hsettings := settings_start hk
  have hblock := isBlock_round (session.start traced batches k) traced (eventsOf batches k)
  rwa [hsettings.1, hsettings.2, frameOf_start hmachine (Nat.le_of_lt hk),
    ← getElem_rounds hk] at hblock

theorem blocks_rounds (hmachine : session.machine.Whole) (traced : Bool)
    (batches : List (List Event)) :
    Blocks session.fps session.buzzer.audible
      (roundFrame session.machine traced session.cyclesPerFrame batches)
      (session.rounds traced batches).length
      ((session.rounds traced batches).map Round.effects) := by
  rw [Blocks, List.forall₂_map_right_iff, List.forall₂_map_left_iff, List.forall₂_iff_get]
  refine ⟨List.length_range, fun k _ hk => ?_⟩
  simpa using isBlock_getElem_rounds hmachine hk

theorem course_rounds (hmachine : session.machine.Whole) (traced : Bool)
    (batches : List (List Event)) :
    Course session.fps session.buzzer.audible
      (roundFrame session.machine traced session.cyclesPerFrame batches) (quitRound batches)
      (Run.endingOf (session.rounds traced batches))
      ((session.rounds traced batches).map Round.effects) := by
  have hblocks := blocks_rounds hmachine traced batches
  rcases frames_succeed_or_fail session.machine traced session.cyclesPerFrame batches
    (quitRound batches + 1) with hok | ⟨k, hk, fault, hbefore, hfault⟩
  · have hlength := length_rounds hmachine (Nat.le_refl _)
      (fun k hk => hok k (Nat.lt_succ_of_lt hk)) (.inl rfl)
    obtain ⟨hlast, -⟩ := last_round hmachine hlength
    obtain ⟨dirty, hresult⟩ := hok _ (Nat.lt_succ_self _)
    rw [← frameOf_start hmachine (by omega)] at hresult
    rw [hlength] at hblocks
    rw [endingOf_of_getLast? hlast, fault_round_of_ok hresult]
    exact .completed (fun k hk => hok k (Nat.lt_succ_of_le hk)) hblocks
  · have hquit := Nat.le_of_lt_succ hk
    have hlength := length_rounds hmachine hquit hbefore (.inr ⟨fault, hfault⟩)
    obtain ⟨hlast, -⟩ := last_round hmachine hlength
    have hframe : (session.start traced batches k).frameOf traced (eventsOf batches k)
        = roundFrame session.machine traced session.cyclesPerFrame batches k :=
      frameOf_start hmachine (by omega)
    rw [hlength] at hblocks
    rw [endingOf_of_getLast? hlast, round_of_error (hframe ▸ hfault), hframe]
    exact .crashed hquit hbefore hfault hblocks

end Session

/-! ### Whole runs -/

namespace Run

variable {arguments : List String} {options : CommandLine.Options} {surroundings : Surroundings}
  {file : String} {program : List Int} {screen : Screen} {sound : Option (List UInt8)}

theorem ofArguments?_of_loads (hparse : CommandLine.parse arguments = .ok options)
    (hloads : Loads options surroundings file program) :
    ∃ lines, Opening.ofArguments? arguments surroundings =
      Opening.ofMachine? options file surroundings
        ((Machine.powerOn defaultStackCapacity surroundings.random).after surroundings.traced
          [.load program]) lines := by
  have hresult : (Machine.load program surroundings.traced
      (.powerOn defaultStackCapacity surroundings.random)).result = .ok () :=
    Machine.result_load_eq_ok_iff.mpr ⟨hloads.length_le, hloads.bytes⟩
  refine ⟨(Machine.load program surroundings.traced
    (.powerOn defaultStackCapacity surroundings.random)).notes.map Note.line, ?_⟩
  rw [Machine.after, Machine.after, Machine.state_perform_load, Opening.ofArguments?, hparse]
  dsimp only
  rw [Opening.ofOptions?, hloads.file_eq]
  dsimp only
  rw [Opening.ofFile?, hloads.read]
  dsimp only
  rw [hresult]

/-- The session that is opened for a loaded machine. -/
theorem ofArguments?_of_equipped (hparse : CommandLine.parse arguments = .ok options)
    (hloads : Loads options surroundings file program)
    (hequipped : Equipped options surroundings screen sound) {volume : Float}
    (hvolume : options.volume = some volume)
    (hpace : surroundings.clock.keeps options.fps = true) {cycles : Int}
    (hcycles : options.cycles = some cycles) :
    ∃ lines, Opening.ofArguments? arguments surroundings =
      .ok
        { session :=
            { machine := (Machine.powerOn defaultStackCapacity surroundings.random).after
                surroundings.traced [.load program]
              screen := screen
              buzzer :=
                (Buzzer.setUp surroundings.room volume options.mute surroundings.mixer).buzzer
              fps := options.fps
              cyclesPerFrame := cycles }
          lines := lines
          effects := preparation file ++ (surroundings.mixer.opening ++
            sound.toList.flatMap Buzzer.startSound) ++ [.flip screen.surface] } := by
  obtain ⟨scale, hscale, hscreen⟩ := hequipped.window
  obtain ⟨hfault, heffects, -⟩ := Buzzer.setUp_of_sound hequipped.sound_eq volume options.mute
  obtain ⟨lines, hopening⟩ := ofArguments?_of_loads hparse hloads
  rw [Opening.ofMachine?, openScreen_of_ok hscale hscreen, setUpBuzzer, hvolume] at hopening
  simp only [hfault, heffects, hpace, if_true, hcycles] at hopening
  exact ⟨_, hopening⟩

theorem opened_ofArguments (hparse : CommandLine.parse arguments = .ok options)
    (hloads : Loads options surroundings file program)
    (hequipped : Equipped options surroundings screen sound) :
    ∃ blocks,
      (ofArguments arguments surroundings).effects
        = preparation file ++ surroundings.mixer.opening ++
          sound.toList.flatMap Buzzer.startSound ++ [.flip screen.surface] ++ blocks.flatten ++
          [.quit] ∧
      GoesOn options surroundings
        ((Machine.powerOn defaultStackCapacity surroundings.random).after surroundings.traced
          [.load program])
        sound.isSome (ofArguments arguments surroundings).ending blocks := by
  obtain ⟨scale, hscale, hscreen⟩ := hequipped.window
  obtain ⟨volume, hvolume⟩ := hequipped.volume
  obtain ⟨hfault, heffects, haudible⟩ :=
    Buzzer.setUp_of_sound hequipped.sound_eq volume options.mute
  obtain ⟨lines, hopening⟩ := ofArguments?_of_loads hparse hloads
  rw [Opening.ofMachine?, openScreen_of_ok hscale hscreen, setUpBuzzer, hvolume] at hopening
  have hmachine := (Machine.whole_powerOn defaultStackCapacity surroundings.random).after
    surroundings.traced [.load program]
  unfold GoesOn
  cases hpace : surroundings.clock.keeps options.fps with
  | false =>
      simp only [hfault, heffects, hpace, Bool.false_eq_true, if_false] at hopening
      rw [ofArguments, hopening]
      refine ⟨[], ?_, rfl, rfl⟩
      simp [early]
  | true =>
      simp only [if_true]
      cases hcycles : options.cycles with
      | none =>
          simp only [hfault, heffects, hpace, if_true, hcycles,
            withoutCycles_eq hmachine.keypad] at hopening
          rw [ofArguments, hopening]
          refine ⟨[[.frame options.fps]], ?_, rfl, rfl⟩
          simp [early]
      | some cycles =>
          simp only [hfault, heffects, hpace, if_true, hcycles] at hopening
          rw [ofArguments, hopening, ← haudible]
          let session : Session :=
            { machine := (Machine.powerOn defaultStackCapacity surroundings.random).after
                surroundings.traced [.load program]
              screen := screen
              buzzer :=
                (Buzzer.setUp surroundings.room volume options.mute surroundings.mixer).buzzer
              fps := options.fps
              cyclesPerFrame := cycles }
          refine ⟨(session.rounds surroundings.traced surroundings.batches).map Round.effects,
            ?_, ?_⟩
          · simp [ofOpening, List.flatMap_def, session]
          · exact session.course_rounds hmachine surroundings.traced surroundings.batches

/-- Where no program is loaded nothing is done, and the machine is as it was switched on. -/
theorem unloaded_ofArguments (hparse : CommandLine.parse arguments = .ok options)
    (hloads : ∀ file program, ¬Loads options surroundings file program) :
    (ofArguments arguments surroundings).effects = [] ∧
      (ofArguments arguments surroundings).machine
        = some (.powerOn defaultStackCapacity surroundings.random) := by
  rw [ofArguments, Opening.ofArguments?, hparse]
  dsimp only
  rw [Opening.ofOptions?]
  cases hfile : options.file with
  | none => exact ⟨rfl, rfl⟩
  | some file =>
      dsimp only
      rw [Opening.ofFile?]
      cases hread : surroundings.read file with
      | error failure => exact ⟨rfl, rfl⟩
      | ok program =>
          have hnot : ¬Memory.Loadable program := fun hloadable =>
            hloads file program ⟨hfile, hread, hloadable.1, hloadable.2⟩
          have hresult : (Machine.load program surroundings.traced
              (.powerOn defaultStackCapacity surroundings.random)).result = _ :=
            Machine.result_load program
          rw [if_neg hnot] at hresult
          have hkept := Machine.state_load_of_error hresult
          dsimp only
          rw [hresult]
          exact ⟨rfl, congrArg some hkept⟩

/-! ### Without a sound device -/

theorem silent_append_iff {first second : List Effect} :
    Silent (first ++ second) ↔ Silent first ∧ Silent second := by
  simp only [Silent, List.mem_append, or_imp, forall_and]

theorem silent_preparation (file : String) : Silent (preparation file) := by
  simp [Silent, preparation, Effect.isSound]

theorem silent_opening (mixer : Mixer) : Silent mixer.opening := by
  unfold Mixer.opening
  split <;> simp [Silent, Effect.isSound]

theorem silent_flip (surface : Surface) : Silent [.flip surface] := by
  simp [Silent, Effect.isSound]

theorem silent_of_isBlock {fps : Option Int} {result : Except Fault Bool} {effects : List Effect}
    (hblock : Session.IsBlock fps false result effects) : Silent effects := by
  cases result with
  | error fault =>
      rw [Session.IsBlock] at hblock
      simp [hblock, Silent, Effect.isSound]
  | ok dirty =>
      obtain ⟨surface, volume, rfl⟩ := hblock
      cases dirty <;> simp [Silent, Effect.isSound]

theorem silent_rounds (session : Session) (traced : Bool) (batches : List (List Event))
    (hsilent : session.buzzer.audible = false) :
    Silent ((session.rounds traced batches).flatMap Round.effects) := by
  intro effect heffect
  obtain ⟨round, hround, hmem⟩ := List.mem_flatMap.mp heffect
  obtain ⟨k, hk, rfl⟩ := List.mem_iff_getElem.mp hround
  have hblock := Session.isBlock_round (session.start traced batches k) traced
    (Session.eventsOf batches k)
  rw [(Session.settings_start hk).2, hsilent, ← Session.getElem_rounds hk] at hblock
  exact silent_of_isBlock hblock effect hmem

def Mute : Except Run Opening → Prop
  | .error run => Silent run.effects
  | .ok opening => Silent opening.effects ∧ opening.session.buzzer.audible = false

theorem mute_ofMachine? (hdevice : surroundings.mixer.format? = none) (file : String)
    (machine : Machine) (loading : List String) :
    Mute (Opening.ofMachine? options file surroundings machine loading) := by
  have hsound :
      surroundings.mixer.format?.mapM (Buzzer.waveFor surroundings.room) = .ok none := by
    rw [hdevice]
    rfl
  rw [Opening.ofMachine?]
  cases openScreen options surroundings.windows with
  | error ending => exact silent_preparation file
  | ok screen =>
      dsimp only
      rw [setUpBuzzer]
      cases options.volume with
      | none => exact silent_preparation file
      | some volume =>
          obtain ⟨hfault, heffects, haudible⟩ := Buzzer.setUp_of_sound hsound volume options.mute
          have hdone : Silent (preparation file ++
              (Buzzer.setUp surroundings.room volume options.mute surroundings.mixer).effects) := by
            rw [heffects, silent_append_iff]
            exact ⟨silent_preparation file, by simpa using silent_opening surroundings.mixer⟩
          dsimp only
          rw [hfault]
          dsimp only
          have hflip := silent_append_iff.mpr ⟨hdone, silent_flip screen.surface⟩
          cases surroundings.clock.keeps options.fps with
          | false => exact silent_append_iff.mpr ⟨hflip, by simp [Silent, Effect.isSound]⟩
          | true =>
              cases options.cycles with
              | none => exact silent_append_iff.mpr ⟨hflip, by simp [Silent, Effect.isSound]⟩
              | some cycles => exact ⟨hflip, haudible⟩

theorem mute_ofArguments? (arguments : List String) (hdevice : surroundings.mixer.format? = none) :
    Mute (Opening.ofArguments? arguments surroundings) := by
  rcases Opening.ofArguments?_cases arguments surroundings with
    ⟨run, hopening, heffects⟩ | ⟨options, file, machine, loading, -, -, hopening⟩
  · rw [hopening, Mute, heffects]
    simp [Silent]
  · rw [hopening]
    exact mute_ofMachine? hdevice file machine loading

theorem silent_ofArguments (arguments : List String) (hdevice : surroundings.mixer.format? = none) :
    Silent (ofArguments arguments surroundings).effects := by
  have hmute := mute_ofArguments? arguments hdevice
  rw [ofArguments]
  cases hopening : Opening.ofArguments? arguments surroundings with
  | error run =>
      rw [hopening] at hmute
      exact hmute
  | ok opening =>
      rw [hopening] at hmute
      simp only [ofOpening, silent_append_iff]
      refine ⟨⟨hmute.1, silent_rounds _ _ _ hmute.2⟩, ?_⟩
      simp [Silent, Effect.isSound]

theorem lifeCycle_ofArguments (arguments : List String) (surroundings : Surroundings) :
    (ofArguments arguments surroundings).LifeCycle arguments surroundings where
  silent := silent_ofArguments arguments
  halted := by
    intro halt hparse
    rw [ofArguments, Opening.ofArguments?, hparse]
    cases halt with
    | help => exact ⟨rfl, rfl⟩
    | misuse misuse => exact ⟨rfl, rfl⟩
  unloaded := fun _ hparse hloads => unloaded_ofArguments hparse hloads
  opened := fun _ _ _ _ _ hparse hloads hequipped => opened_ofArguments hparse hloads hequipped

/-- Two rounds without a cycle, with a sound device that has to be opened. -/
theorem lifeCycle_ofArguments_idle :
    let arguments := ["-f", "idle.ch8", "-c", "0", "-s", "2"]
    let surroundings : Surroundings :=
      { read := fun _ => .ok [0x12, 0x00]
        room := .ample
        windows := .boundless
        mixer := ⟨none, .ok⟩
        clock := .doubles
        random := .cycling #[]
        batches := [[.other], [.keyDown 113, .quit, .keyDown 49]]
        traced := false }
    ∃ wave surface first second, (ofArguments arguments surroundings).effects =
      preparation "idle.ch8" ++ [.openAudio Mixer.preferred Mixer.preferredBuffer] ++
        [.makeSound wave, .setVolume 0.0, .play (-1)] ++ [.flip surface] ++
        [.frame (some 60), .setVolume first, .frame (some 60), .setVolume second] ++ [.quit] := by
  intro arguments surroundings
  let options : CommandLine.Options :=
    { file := some "idle.ch8"
      cycles := some 0
      fps := some defaultFramesPerSecond
      scale := some 2
      mute := false
      volume := some defaultVolume }
  have hparse : CommandLine.parse arguments = .ok options := rfl
  have hloads : Loads options surroundings "idle.ch8" [0x12, 0x00] :=
    ⟨rfl, rfl, by decide, by decide⟩
  obtain ⟨wave, hwave⟩ : ∃ wave,
      surroundings.mixer.format?.mapM (Buzzer.waveFor .ample) = .ok (some wave) := ⟨_, rfl⟩
  obtain ⟨screen, hscreen⟩ : ∃ screen,
      Screen.open? surroundings.windows screenWidth screenHeight 2 = .ok screen := ⟨_, rfl⟩
  have hequipped : Equipped options surroundings screen (some wave) :=
    ⟨⟨2, rfl, hscreen⟩, ⟨_, rfl⟩, hwave⟩
  obtain ⟨blocks, heffects, hcourse⟩ :=
    (lifeCycle_ofArguments arguments surroundings).opened _ _ _ _ _ hparse hloads hequipped
  let start := (Machine.powerOn 16 (.cycling #[])).after false [.load [0x12, 0x00]]
  have hframes : ∀ k ≤ 1,
      (Session.roundFrame start false 0 surroundings.batches k).result = .ok false := by
    intro k hk
    rcases Nat.le_one_iff_eq_zero_or_eq_one.mp hk with rfl | rfl
    · rfl
    · rfl
  have hcourse' : Session.Course (some 60) true
      (Session.roundFrame start false 0 surroundings.batches) 1
      (ofArguments arguments surroundings).ending blocks := hcourse
  generalize (ofArguments arguments surroundings).ending = ending at hcourse'
  cases hcourse' with
  | crashed hk hbefore hfault hblocks => cases (hframes _ hk).symm.trans hfault
  | completed hok hblocks =>
      have hresults : (List.range 2).map (fun k =>
          (Session.roundFrame start false 0 surroundings.batches k).result)
            = [Except.ok false, Except.ok false] := by
        rw [List.range_succ_eq_map]
        simp [hframes]
      rw [Session.Blocks, hresults] at hblocks
      obtain _ | ⟨⟨_, first, rfl⟩, _ | ⟨⟨_, second, rfl⟩, _ | _⟩⟩ := hblocks
      exact ⟨wave, screen.surface, first, second, heffects⟩

/-- What comes between the loading of a program and the first round may keep a run from the end that
it was to come to: without a window, a volume or a wave it never leaves, and without a rate for the
clock no round is begun. -/
theorem unopened_runs_never_quit :
    let plain := ["-f", "loop.ch8"]
    let largeWindow := plain ++ ["-s", "144115188075855871"]
    let blankVolume := plain ++ ["--volume=--"]
    let blankRate := plain ++ ["--fps=--"]
    let silent : Surroundings :=
      { read := fun _ => .ok [0x12, 0x00]
        room := .below (1 <<< 47)
        windows := .narrow
        mixer := ⟨none, fun _ => .error "no sound"⟩
        clock := .doubles
        random := .cycling #[]
        batches := []
        traced := false }
    let rapid : Surroundings := { silent with mixer := ⟨some ⟨1 <<< 60, -16, 1⟩, .ok⟩ }
    (∀ run ∈ [(largeWindow, silent), (blankVolume, silent), (blankRate, silent), (plain, rapid)],
      (∃ options scale, CommandLine.parse run.1 = .ok options ∧ options.scale = some scale ∧
        1 ≤ scale ∧ Loads options run.2 "loop.ch8" [0x12, 0x00])) ∧
      (∀ run ∈ [(largeWindow, silent), (blankVolume, silent), (plain, rapid)],
        (ofArguments run.1 run.2).effects = preparation "loop.ch8" ∧
        ∀ before, (ofArguments run.1 run.2).effects ≠ before ++ [.quit]) ∧
      (ofArguments blankRate silent).frames = 0 := by
  intro plain largeWindow blankVolume blankRate silent rapid
  have hunquit : ∀ effects before, effects = preparation "loop.ch8" →
      effects ≠ before ++ [.quit] := by
    rintro effects before rfl hquit
    have hlast := congrArg List.getLast? hquit
    simp [preparation] at hlast
  have hwindow : (ofArguments largeWindow silent).effects = preparation "loop.ch8" := rfl
  have hvolume : (ofArguments blankVolume silent).effects = preparation "loop.ch8" := rfl
  have hsound : (ofArguments plain rapid).effects = preparation "loop.ch8" := rfl
  refine ⟨fun run hrun => ?_, fun run hrun => ?_, rfl⟩
  · simp only [List.mem_cons, List.not_mem_nil, or_false] at hrun
    rcases hrun with rfl | rfl | rfl | rfl
    · exact ⟨_, 144115188075855871, rfl, rfl, by decide, rfl, rfl, by decide, by decide⟩
    · exact ⟨_, 10, rfl, rfl, by decide, rfl, rfl, by decide, by decide⟩
    · exact ⟨_, 10, rfl, rfl, by decide, rfl, rfl, by decide, by decide⟩
    · exact ⟨_, 10, rfl, rfl, by decide, rfl, rfl, by decide, by decide⟩
  · simp only [List.mem_cons, List.not_mem_nil, or_false] at hrun
    rcases hrun with rfl | rfl | rfl
    · exact ⟨hwindow, fun before => hunquit _ before hwindow⟩
    · exact ⟨hvolume, fun before => hunquit _ before hvolume⟩
    · exact ⟨hsound, fun before => hunquit _ before hsound⟩

end Run

end ChipEight
