import ChipEight.Launch

/-!
The program on a terminal. Every line of standard input is a round, and its characters are the keys
held down in it; the window is printed, a character for a pixel, whenever it is brought up to date.
-/

namespace ChipEight.Terminal

/-- The number by which the system knows an error. -/
def errorNumber : IO.Error → Nat
  | .noFileOrDirectory _ code _ => code.toNat
  | .inappropriateType _ code _ => code.toNat
  | .illegalOperation code _ => code.toNat
  | .invalidArgument _ code _ => code.toNat
  | _ => 0

def readProgram (path : String) : IO (Except ProgramFile.Failure (List Int)) := do
  try
    let bytes ← IO.FS.readBinFile path
    pure (.ok (bytes.toList.map fun byte => (byte.toNat : Int)))
  catch error =>
    pure (.error (.ofNumber (errorNumber error)))

partial def readLines (input : IO.FS.Stream) (lines : Array String) : IO (List String) := do
  let line ← input.getLine
  if line.isEmpty then pure lines.toList else readLines input (lines.push line)

/-- The events between two rounds: keys that are no longer held go up, the others go down. -/
def batch (before now : String) : List Event :=
  before.toList.map (fun c => .keyUp c.toNat) ++ now.toList.map (fun c => .keyDown c.toNat)

def batches (lines : List String) : List (List Event) :=
  List.zipWith batch ("" :: lines) lines

def rowText (row : List Bool) : String :=
  String.ofList (row.map fun white => if white then '#' else ' ')

def perform : Effect → IO Unit
  | .caption text => IO.println text
  | .flip surface => surface.rows.forM fun row => IO.println (rowText row)
  | _ => pure ()

/-- Tell how a run ended, and give the exit code. -/
def conclude : Ending → IO UInt32
  | .halted .help => pure 0
  | .halted (.misuse misuse) => do
      CommandLine.usageLines.forM fun line => IO.eprintln line
      IO.eprintln s!"{CommandLine.programName}: error: {misuse.message}"
      pure 2
  | ending =>
      match ending.message? with
      | none => pure 0
      | some message => do
          IO.eprintln message
          pure 1

def launch (arguments : List String) (traced : Bool) : IO UInt32 := do
  let file : Option String :=
    match CommandLine.parse arguments with
    | .ok options => options.file
    | .error _ => none
  let content ← match file with
    | some path => readProgram path
    | none => pure (.error .missing)
  let lines ← if file.isSome then readLines (← IO.getStdin) #[] else pure []
  let bytes ← IO.getRandomBytes 65536
  let run := Run.ofArguments arguments
    { read := fun _ => content
      room := .ample
      windows := .boundless
      mixer := ⟨none, fun _ => .error "no sound on a terminal"⟩
      clock := .doubles
      random := .cycling bytes.data
      batches := batches lines
      traced := traced }
  run.lines.forM fun line => IO.println line
  run.effects.forM perform
  conclude run.ending

end ChipEight.Terminal

/-- Run the program; the variable `DEBUG` asks for tracing. -/
def main (arguments : List String) : IO UInt32 := do
  match ChipEight.CommandLine.tracing? (← IO.getEnv "DEBUG") with
  | some traced => ChipEight.Terminal.launch arguments traced
  | none => do
      IO.eprintln "the variable DEBUG must be a number"
      pure 1
