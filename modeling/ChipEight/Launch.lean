import ChipEight.CommandLine.Options
import ChipEight.ProgramFile
import ChipEight.Session

/-!
A whole run of the program: read the command line, load the program file into a machine, open the
window and the buzzer, and go through the rounds of the session.
-/

namespace ChipEight

inductive Ending where
  | completed
  /-- The command line asks for help or is misused. -/
  | halted (halt : CommandLine.Halt)
  | unreadable (file : String) (failure : ProgramFile.Failure)
  | refused (file : String) (fault : Fault)
  /-- A setting without a value was needed. -/
  | unset (flag : CommandLine.Flag)
  | noWindow (reason : String)
  | noSound (fault : Fault)
  /-- The clock cannot keep the rate of the frames. -/
  | unpaced
  | crashed (fault : Fault) (machine : Machine)

/-- What a run tells the user at its end, if anything. -/
def Ending.message? : Ending → Option String
  | completed | halted _ => none
  | unreadable file failure => some s!"cannot load {file}: {failure.message file}"
  | refused file fault => some s!"cannot load {file}: {fault.message}"
  | unset flag => some s!"argument {flag.title}: no value"
  | noWindow reason => some s!"cannot open a window: {reason}"
  | noSound fault => some s!"cannot make a sound: {fault.message}"
  | unpaced => some s!"argument {CommandLine.Flag.fps.title}: no rate for the clock"
  | crashed fault machine =>
      some ("********** THE EMULATOR CRASHED (" ++ fault.message
        ++ ") WITH THE FOLLOWING STATE\n" ++ machine.report)

/-- What a run depends on beside its command line. -/
structure Surroundings where
  read : String → Except ProgramFile.Failure (List Int)
  room : Room
  windows : WindowSystem
  mixer : Mixer
  clock : Clock
  random : RandomBytes
  /-- The batches of events that come in, one for each round. -/
  batches : List (List Event)
  traced : Bool

structure Run where
  ending : Ending
  lines : List String
  effects : List Effect
  /-- The machine at the end, if one was built. -/
  machine : Option Machine

namespace Run

/-- A run that ends before its first round is done. -/
def early (ending : Ending) (lines : List String) (effects : List Effect)
    (machine : Option Machine) : Run :=
  ⟨ending, lines, effects, machine⟩

def preparation (file : String) : List Effect :=
  [.presetAudio Mixer.preferred Mixer.preferredBuffer, .start,
    .caption (ProgramFile.baseName file)]

def openScreen (options : CommandLine.Options) (windows : WindowSystem) : Except Ending Screen :=
  match options.scale with
  | none => .error (.unset .scale)
  | some scale => (Screen.open? windows screenWidth screenHeight scale).mapError .noWindow

def setUpBuzzer (options : CommandLine.Options) (room : Room) (mixer : Mixer) :
    Except Ending Buzzer.Setup :=
  match options.volume with
  | none => .error (.unset .volume)
  | some volume => .ok (Buzzer.setUp room volume options.mute mixer)

/-- The lines that tell of a silent buzzer. -/
def silenceLines (setup : Buzzer.Setup) (traced : Bool) : List String :=
  if traced then setup.silentBecause.toList.map Buzzer.silenceLine else []

def endingOf (rounds : List Round) : Ending :=
  match rounds.getLast? with
  | some ⟨session, _, _, some fault⟩ => .crashed fault session.machine
  | _ => .completed

/-- A run whose frames have no number of cycles: its first round takes its events and no more. -/
def withoutCycles (fps : Option Int) (machine : Machine) (surroundings : Surroundings)
    (lines : List String) (effects : List Effect) : Run :=
  let outcome := Session.handle (surroundings.batches.headD [.quit]) surroundings.traced machine
  let ending := match outcome.result with
    | .ok () => .unset .cycles
    | .error fault => .crashed fault outcome.state
  early ending lines (effects ++ [.frame fps, .quit]) (some outcome.state)

end Run

/-- What is there when the rounds begin: a session, and the lines and effects up to then. -/
structure Opening where
  session : Session
  lines : List String
  effects : List Effect

namespace Opening

open Run

/-- Open the session of a loaded machine, or tell how the run ends instead. -/
def ofMachine? (options : CommandLine.Options) (file : String) (surroundings : Surroundings)
    (machine : Machine) (loading : List String) : Except Run Opening :=
  match openScreen options surroundings.windows with
  | .error ending => .error (early ending loading (preparation file) (some machine))
  | .ok screen =>
      match setUpBuzzer options surroundings.room surroundings.mixer with
      | .error ending => .error (early ending loading (preparation file) (some machine))
      | .ok setup =>
          let lines := loading ++ silenceLines setup surroundings.traced
          let done := preparation file ++ setup.effects
          match setup.fault with
          | some fault => .error (early (.noSound fault) lines done (some machine))
          | none =>
              let effects := done ++ [.flip screen.surface]
              if surroundings.clock.keeps options.fps then
                match options.cycles with
                | none => .error (withoutCycles options.fps machine surroundings lines effects)
                | some cycles =>
                    .ok ⟨⟨machine, screen, setup.buzzer, options.fps, cycles⟩, lines, effects⟩
              else .error (early .unpaced lines (effects ++ [.quit]) (some machine))

/-- Load a program file into a machine and open its session. -/
def ofFile? (options : CommandLine.Options) (file : String) (surroundings : Surroundings)
    (machine : Machine) : Except Run Opening :=
  match surroundings.read file with
  | .error failure => .error (early (.unreadable file failure) [] [] (some machine))
  | .ok program =>
      let loaded := Machine.load program surroundings.traced machine
      match loaded.result with
      | .error fault => .error (early (.refused file fault) [] [] (some loaded.state))
      | .ok () => ofMachine? options file surroundings loaded.state (loaded.notes.map Note.line)

def ofOptions? (options : CommandLine.Options) (surroundings : Surroundings) :
    Except Run Opening :=
  let machine := Machine.powerOn defaultStackCapacity surroundings.random
  match options.file with
  | none => .error (early (.unset .file) [] [] (some machine))
  | some file => ofFile? options file surroundings machine

/-- Everything that a command line asks for before the first round. -/
def ofArguments? (arguments : List String) (surroundings : Surroundings) : Except Run Opening :=
  match CommandLine.parse arguments with
  | .error .help => .error (early (.halted .help) CommandLine.helpLines [] none)
  | .error (.misuse misuse) => .error (early (.halted (.misuse misuse)) [] [] none)
  | .ok options => ofOptions? options surroundings

end Opening

namespace Run

/-- Go through the rounds of a session that has been opened. -/
def ofOpening (opening : Opening) (surroundings : Surroundings) : Run :=
  let rounds := opening.session.rounds surroundings.traced surroundings.batches
  { ending := endingOf rounds
    lines := opening.lines ++ rounds.flatMap fun round => round.notes.map Note.line
    effects := opening.effects ++ rounds.flatMap Round.effects ++ [.quit]
    machine := some (opening.session.after rounds).machine }

def ofArguments (arguments : List String) (surroundings : Surroundings) : Run :=
  match Opening.ofArguments? arguments surroundings with
  | .error run => run
  | .ok opening => ofOpening opening surroundings

end Run

end ChipEight
