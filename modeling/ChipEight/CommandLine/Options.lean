import ChipEight.CommandLine.Argument
import ChipEight.Numeral.Decimal
import ChipEight.Parameters

/-!
The options that a command line sets. Flags take effect from left to right, the last one wins; what
is no flag and no value is kept and refused at the end, after a missing program file. Whether the
machine is traced is a setting of the environment.
-/

namespace ChipEight.CommandLine

/-- What a command line sets. A setting is `none` if its flag came with a blank value. -/
structure Options where
  file : Option String
  cycles : Option Int
  fps : Option Int
  scale : Option Int
  mute : Bool
  volume : Option Float

inductive Halt where
  | help
  | misuse (misuse : Misuse)

/-- The options set so far, whether a file is among them, and the arguments that found no use. -/
structure Draft where
  options : Options
  hasFile : Bool
  unused : List String

namespace Draft

def initial : Draft where
  options :=
    { file := none
      cycles := some defaultCyclesPerFrame
      fps := some defaultFramesPerSecond
      scale := some defaultScale
      mute := false
      volume := some defaultVolume }
  hasFile := false
  unused := []

def keep (draft : Draft) (text : String) : Draft :=
  { draft with unused := draft.unused ++ [text] }

def switch (draft : Draft) : Flag → Except Halt Draft
  | .help => .error .help
  | .mute => .ok { draft with options := { draft.options with mute := true } }
  | _ => .ok draft

/-- The number of a text; a blank is none. -/
def integer (flag : Flag) : Option String → Except Halt (Option Int)
  | none => .ok none
  | some text =>
      match Numeral.integer? text with
      | some value => .ok (some value)
      | none => .error (.misuse (.invalidInteger flag text))

def decimal (flag : Flag) : Option String → Except Halt (Option Float)
  | none => .ok none
  | some text =>
      match Numeral.decimal? text with
      | some value => .ok (some value)
      | none => .error (.misuse (.invalidDecimal flag text))

def assign (draft : Draft) (flag : Flag) (value : Option String) : Except Halt Draft :=
  let set (options : Options) : Draft := { draft with options := options }
  match flag with
  | .file => .ok { draft with options := { draft.options with file := value }, hasFile := true }
  | .cycles => (integer flag value).map fun n => set { draft.options with cycles := n }
  | .fps => (integer flag value).map fun n => set { draft.options with fps := n }
  | .scale => (integer flag value).map fun n => set { draft.options with scale := n }
  | .volume => (decimal flag value).map fun x => set { draft.options with volume := x }
  | .help | .mute => .ok draft

def finish (draft : Draft) : Except Halt Options :=
  if !draft.hasFile then .error (.misuse .missingFile)
  else if draft.unused.isEmpty then .ok draft.options
  else .error (.misuse (.unrecognized draft.unused))

end Draft

/-- Where the value of a flag stands. -/
inductive Place where
  | next
  | joined (value : List Char)

/-- The flags that one argument holds: some without a value, then perhaps one with a value. -/
structure Bundle where
  switches : List Flag
  valued : Option (Flag × Place)

namespace Bundle

def single (flag : Flag) : Bundle :=
  if flag.takesValue then ⟨[], some (flag, .next)⟩ else ⟨[flag], none⟩

def cons (flag : Flag) (bundle : Bundle) : Bundle :=
  { bundle with switches := flag :: bundle.switches }

/-- Take apart what is joined to a flag: its value if it takes one; otherwise, behind a single
dash, the letters of further flags. -/
def ofJoined (flag : Flag) (short : Bool) : List Char → Except Misuse Bundle
  | [] =>
      if flag.takesValue then .ok ⟨[], some (flag, .joined [])⟩
      else .error (.unwantedValue flag "")
  | letter :: rest =>
      if flag.takesValue then .ok ⟨[], some (flag, .joined (letter :: rest))⟩
      else
        match if short then Flag.ofLetter? letter else none with
        | none => .error (.unwantedValue flag (String.ofList (letter :: rest)))
        | some next =>
            (if rest.isEmpty then .ok (single next) else ofJoined next true rest).map (cons flag)

def ofFlag (flag : Flag) (short : Bool) : Option (List Char) → Except Misuse Bundle
  | none => .ok (single flag)
  | some joined => ofJoined flag short joined

/-- The flags without a value take effect one after another. -/
def switchAll (bundle : Bundle) (draft : Draft) : Except Halt Draft :=
  bundle.switches.foldlM Draft.switch draft

end Bundle

/-- A joined value as it stands; a double dash is a blank. -/
def joinedValue (value : List Char) : Option String :=
  if value == ['-', '-'] then none else some (String.ofList value)

/-- Work through the arguments. A flag that still needs its value takes the next argument, which
has to be a plain one. -/
def consume (draft : Draft) : List Argument → Except Halt Draft
  | [] => .ok draft
  | .plain text :: rest => consume (draft.keep text) rest
  | .separator :: rest => consume (draft.keep "--") rest
  | .unknown text :: rest => consume (draft.keep text) rest
  | .option flag short joined :: rest =>
      match Bundle.ofFlag flag short joined with
      | .error misuse => .error (.misuse misuse)
      | .ok bundle =>
          match bundle.valued with
          | none => (bundle.switchAll draft).bind fun draft => consume draft rest
          | some (owner, .joined value) =>
              (bundle.switchAll draft).bind fun draft =>
                (draft.assign owner (joinedValue value)).bind fun draft => consume draft rest
          | some (owner, .next) =>
              match rest with
              | .plain text :: rest =>
                  (bundle.switchAll draft).bind fun draft =>
                    (draft.assign owner (some text)).bind fun draft => consume draft rest
              | _ => .error (.misuse (.missingValue owner))

/-- The options of a command line. An ambiguous abbreviation anywhere is refused first. -/
def parse (arguments : List String) : Except Halt Options :=
  match Argument.classifyAll arguments with
  | .error misuse => .error (.misuse misuse)
  | .ok arguments => (consume .initial arguments).bind Draft.finish

def programName : String := "chip8"

def usageLines : List String :=
  ["usage: chip8 [-h] -f FILE [-c CYCLES] [--fps FPS] [-s SCALE] [--mute]",
   "             [--volume VOLUME]"]

def helpLines : List String :=
  usageLines ++
  ["",
   "CHIP-8 interpreter",
   "",
   "options:",
   "  -h, --help            show this help message and exit",
   "  -f FILE, --file FILE  input rom file",
   "  -c CYCLES, --cycles CYCLES",
   "                        instructions executed per frame",
   "  --fps FPS             frames (and timer ticks) per second",
   "  -s SCALE, --scale SCALE",
   "                        size in pixels of a CHIP-8 pixel",
   "  --mute                disable the buzzer",
   "  --volume VOLUME       buzzer volume, between 0.0 and 1.0"]

/-- An unset variable asks for no tracing, a number asks for it if it is positive, and any other
text is no answer. -/
def tracing? : Option String → Option Bool
  | none => some false
  | some text => (Numeral.integer? text).map fun level => decide (1 ≤ level)

end ChipEight.CommandLine
