import ChipEight.Launch
import ChipEight.Proofs.SessionRounds

/-!
Opening a session: what keeps a run from its first frame, and what a session consists of when
nothing does.
-/

namespace ChipEight

inductive Run.Hindered (options : CommandLine.Options) (surroundings : Surroundings) :
    Ending → Prop
  | noFile (hfile : options.file = none) : Hindered options surroundings (.unset .file)
  | unreadable {file : String} {failure : ProgramFile.Failure} (hfile : options.file = some file)
      (hread : surroundings.read file = .error failure) :
      Hindered options surroundings (.unreadable file failure)
  | refused {file : String} {program : List Int} {fault : Fault}
      (hfile : options.file = some file) (hread : surroundings.read file = .ok program)
      (hload : (Memory.load program surroundings.traced .initial).result = .error fault) :
      Hindered options surroundings (.refused file fault)
  | noWindow {scale : Int} {reason : String} (hscale : options.scale = some scale)
      (hopened : Screen.open? surroundings.windows screenWidth screenHeight scale
        = .error reason) :
      Hindered options surroundings (.noWindow reason)
  | noVolume (hvolume : options.volume = none) : Hindered options surroundings (.unset .volume)
  | noSound {volume : Float} {fault : Fault} (hvolume : options.volume = some volume)
      (hfault : (Buzzer.setUp surroundings.room volume options.mute surroundings.mixer).fault
        = some fault) :
      Hindered options surroundings (.noSound fault)
  | unpaced (hpace : surroundings.clock.keeps options.fps = false) :
      Hindered options surroundings .unpaced
  | noCycles (hcycles : options.cycles = none) : Hindered options surroundings (.unset .cycles)

namespace Run

variable {options : CommandLine.Options} {windows : WindowSystem} {scale : Int}

theorem openScreen_of_ok {screen : Screen} (hscale : options.scale = some scale)
    (hopened : Screen.open? windows screenWidth screenHeight scale = .ok screen) :
    openScreen options windows = .ok screen := by
  rw [openScreen, hscale]
  exact congrArg (Except.mapError Ending.noWindow) hopened

theorem openScreen_of_error {reason : String} (hscale : options.scale = some scale)
    (hopened : Screen.open? windows screenWidth screenHeight scale = .error reason) :
    openScreen options windows = .error (.noWindow reason) := by
  rw [openScreen, hscale]
  exact congrArg (Except.mapError Ending.noWindow) hopened

theorem withoutCycles_eq {machine : Machine} (hkeypad : machine.keypad.Whole) (fps : Option Int)
    (surroundings : Surroundings) (lines : List String) (effects : List Effect) :
    withoutCycles fps machine surroundings lines effects =
      early (.unset .cycles) lines (effects ++ [.frame fps, .quit])
        (some (Session.handle (surroundings.batches.headD [.quit]) surroundings.traced
          machine).state) := by
  simp only [withoutCycles, Session.handle_eq hkeypad]

end Run

namespace Opening

variable {options : CommandLine.Options} {surroundings : Surroundings} {scale : Int}

/-- What is opened for a machine if every setting that is needed has a value, and the window, the
sound device and the clock play along. -/
inductive Opens (options : CommandLine.Options) (surroundings : Surroundings) (file : String)
    (machine : Machine) : Opening → Prop
  | intro {scale : Int} {screen : Screen} {volume : Float} {cycles : Int} (lines : List String)
      (hscale : options.scale = some scale)
      (hscreen : Screen.open? surroundings.windows screenWidth screenHeight scale = .ok screen)
      (hvolume : options.volume = some volume)
      (hfault : (Buzzer.setUp surroundings.room volume options.mute surroundings.mixer).fault
        = none)
      (hpace : surroundings.clock.keeps options.fps = true)
      (hcycles : options.cycles = some cycles) :
      Opens options surroundings file machine
        { session :=
            { machine := machine
              screen := screen
              buzzer :=
                (Buzzer.setUp surroundings.room volume options.mute surroundings.mixer).buzzer
              fps := options.fps
              cyclesPerFrame := cycles }
          lines := lines
          effects := Run.preparation file
            ++ (Buzzer.setUp surroundings.room volume options.mute surroundings.mixer).effects
            ++ [.flip screen.surface] }

theorem opens_ofMachine? (surroundings : Surroundings) (hscale : options.scale = some scale)
    (file : String) {machine : Machine} (hkeypad : machine.keypad.Whole) (loading : List String) :
    match ofMachine? options file surroundings machine loading with
    | .error run => Run.Hindered options surroundings run.ending
    | .ok opening => Opens options surroundings file machine opening := by
  rw [ofMachine?]
  cases hopened : Screen.open? surroundings.windows screenWidth screenHeight scale with
  | error reason =>
      rw [Run.openScreen_of_error hscale hopened]
      exact .noWindow hscale hopened
  | ok screen =>
      rw [Run.openScreen_of_ok hscale hopened, Run.setUpBuzzer]
      cases hvolume : options.volume with
      | none => exact .noVolume hvolume
      | some volume =>
          dsimp only
          cases hfault :
              (Buzzer.setUp surroundings.room volume options.mute surroundings.mixer).fault with
          | some fault => exact .noSound hvolume hfault
          | none =>
              cases hpace : surroundings.clock.keeps options.fps with
              | false => exact .unpaced hpace
              | true =>
                  cases hcycles : options.cycles with
                  | none =>
                      simp only [if_true, Run.withoutCycles_eq hkeypad]
                      exact .noCycles hcycles
                  | some cycles => exact .intro _ hscale hopened hvolume hfault hpace hcycles

theorem opens_ofFile? (hscale : options.scale = some scale) {file : String}
    (hfile : options.file = some file) {program : List Int}
    (hread : surroundings.read file = .ok program) {machine : Machine}
    (hmemory : machine.memory = .initial) (hkeypad : machine.keypad.Whole) :
    match ofFile? options file surroundings machine with
    | .error run => Run.Hindered options surroundings run.ending
    | .ok opening =>
        (Memory.load program surroundings.traced .initial).result = .ok () ∧
          Opens options surroundings file
            (Machine.load program surroundings.traced machine).state opening := by
  have hload : (Machine.load program surroundings.traced machine).result
      = (Memory.load program surroundings.traced .initial).result := by
    rw [← hmemory]
    rfl
  have hkept : (Machine.load program surroundings.traced machine).state.keypad.Whole := hkeypad
  rw [ofFile?, hread, ← hload]
  dsimp only
  generalize Machine.load program surroundings.traced machine = loaded at hload hkept ⊢
  cases hresult : loaded.result with
  | error fault => exact .refused hfile hread (hload.symm.trans hresult)
  | ok done =>
      have hopens := opens_ofMachine? surroundings hscale file hkept
        (loaded.notes.map Note.line)
      dsimp only
      split at hopens
      · exact hopens
      · exact ⟨rfl, hopens⟩

/-- A command line that sets a scale leads to the session of a loaded program, unless one of the
hindrances comes first. -/
theorem opens_ofArguments? (surroundings : Surroundings) {arguments : List String}
    (hparse : CommandLine.parse arguments = .ok options) (hscale : options.scale = some scale) :
    match ofArguments? arguments surroundings with
    | .error run => Run.Hindered options surroundings run.ending
    | .ok opening => ∃ file program, options.file = some file ∧
        surroundings.read file = .ok program ∧
        (Memory.load program surroundings.traced .initial).result = .ok () ∧
        Opens options surroundings file
          (Machine.load program surroundings.traced
            (.powerOn defaultStackCapacity surroundings.random)).state opening := by
  rw [ofArguments?, hparse]
  dsimp only
  unfold ofOptions?
  cases hfile : options.file with
  | none => exact .noFile hfile
  | some file =>
      cases hread : surroundings.read file with
      | error failure =>
          simp only [ofFile?, hread]
          exact .unreadable hfile hread
      | ok program =>
          have hmemory :
              (Machine.powerOn defaultStackCapacity surroundings.random).memory = .initial := rfl
          have hopens := opens_ofFile? hscale hfile hread hmemory Keypad.whole_released
          dsimp only
          split at hopens
          · exact hopens
          · exact ⟨file, program, rfl, hread, hopens⟩

/-- Either a run ends before anything is done, or a machine with a blank display has its session
opened. -/
theorem ofArguments?_cases (arguments : List String) (surroundings : Surroundings) :
    (∃ run, ofArguments? arguments surroundings = .error run ∧ run.effects = []) ∨
      ∃ options file machine loading, CommandLine.parse arguments = .ok options ∧
        machine.display = .blank screenWidth screenHeight ∧
        ofArguments? arguments surroundings
          = ofMachine? options file surroundings machine loading := by
  rw [ofArguments?]
  split
  · exact .inl ⟨_, rfl, rfl⟩
  · exact .inl ⟨_, rfl, rfl⟩
  · rename_i options hparse
    rw [ofOptions?]
    split
    · exact .inl ⟨_, rfl, rfl⟩
    · rw [ofFile?]
      split
      · exact .inl ⟨_, rfl, rfl⟩
      · dsimp only
        split
        · exact .inl ⟨_, rfl, rfl⟩
        · exact .inr ⟨options, _, _, _, hparse, rfl, rfl⟩

end Opening

end ChipEight
