import ChipEight.Buzzer
import ChipEight.Event
import ChipEight.Machine.Cycle
import ChipEight.Screen

/-!
A session: rounds of a running machine. A round takes the events that have come in, runs a frame,
paints the window if the frame asks for it and sets the buzzer. Rounds go on until the user quits,
which does not cut the round short, or until the program misuses the call stack, which does.
-/

namespace ChipEight

structure Session where
  machine : Machine
  screen : Screen
  buzzer : Buzzer
  fps : Option Int
  cyclesPerFrame : Int

structure Round where
  session : Session
  effects : List Effect
  notes : List Note
  fault : Option Fault

namespace Session

def handle (events : List Event) : Step Machine Unit :=
  Machine.onKeypad (Event.applyAll events)

/-- What a machine does in a round: it takes the events and runs a frame. -/
def turn (cycles : Int) (events : List Event) : Step Machine Bool := do
  handle events
  Machine.frame cycles

/-- A machine has been run for a frame that succeeded: paint, and set the buzzer. -/
def present (session : Session) (machine : Machine) (dirty : Bool) : Session × List Effect :=
  let screen := if dirty then session.screen.render machine.display else session.screen
  ({ session with machine := machine, screen := screen },
    (if dirty then [.flip screen.surface] else []) ++ session.buzzer.update machine.beeping)

def round (traced : Bool) (session : Session) (events : List Event) : Round :=
  let outcome := turn session.cyclesPerFrame events traced session.machine
  match outcome.result with
  | .ok dirty =>
      let (session, effects) := session.present outcome.state dirty
      ⟨session, .frame session.fps :: effects, outcome.notes, none⟩
  | .error fault =>
      ⟨{ session with machine := outcome.state }, [.frame session.fps], outcome.notes, some fault⟩

/-- Whether another round follows one that took these events. -/
def goesOn (events : List Event) : Bool :=
  events.all Event.goesOn

/-- The rounds of a session whose events come in batches; after the last batch the user quits. -/
def rounds (traced : Bool) (session : Session) : List (List Event) → List Round
  | [] => [session.round traced [.quit]]
  | events :: rest =>
      let round := session.round traced events
      if round.fault.isNone && goesOn events then round :: rounds traced round.session rest
      else [round]

def after (session : Session) (rounds : List Round) : Session :=
  rounds.foldl (fun _ round => round.session) session

end Session

end ChipEight
