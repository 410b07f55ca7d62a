import ChipEight.Text.Quoted

/-!
The flags of the command line and their spellings, and what can be wrong with a command line.
-/

namespace ChipEight.CommandLine

inductive Flag where
  | help
  | file
  | cycles
  | fps
  | scale
  | mute
  | volume
  deriving DecidableEq

namespace Flag

/-- All spellings, in the order in which the help lists them. -/
def spellings : List (String × Flag) :=
  [("-h", help), ("--help", help), ("-f", file), ("--file", file), ("-c", cycles),
   ("--cycles", cycles), ("--fps", fps), ("-s", scale), ("--scale", scale), ("--mute", mute),
   ("--volume", volume)]

def ofSpelling? (text : String) : Option Flag :=
  spellings.lookup text

def ofLetter? (letter : Char) : Option Flag :=
  ofSpelling? (String.ofList ['-', letter])

/-- The spellings that start like a text. -/
def completions (start : String) : List (String × Flag) :=
  spellings.filter fun (spelling, _) => start.isPrefixOf spelling

def takesValue : Flag → Bool
  | help | mute => false
  | _ => true

/-- The spellings of a flag, as messages name it. -/
def title (flag : Flag) : String :=
  "/".intercalate ((spellings.filter fun (_, other) => other = flag).map Prod.fst)

end Flag

inductive Misuse where
  | ambiguous (argument : String) (candidates : List String)
  | missingValue (flag : Flag)
  /-- A value was joined to a flag that takes none. -/
  | unwantedValue (flag : Flag) (value : String)
  | invalidInteger (flag : Flag) (value : String)
  | invalidDecimal (flag : Flag) (value : String)
  | missingFile
  | unrecognized (arguments : List String)

namespace Misuse

def message : Misuse → String
  | ambiguous argument candidates =>
      s!"ambiguous option: {argument} could match " ++ ", ".intercalate candidates
  | missingValue flag => s!"argument {flag.title}: expected one argument"
  | unwantedValue flag value =>
      s!"argument {flag.title}: ignored explicit argument {Quoted.quote value}"
  | invalidInteger flag value =>
      s!"argument {flag.title}: invalid int value: {Quoted.quote value}"
  | invalidDecimal flag value =>
      s!"argument {flag.title}: invalid float value: {Quoted.quote value}"
  | missingFile => s!"the following arguments are required: {Flag.file.title}"
  | unrecognized arguments => "unrecognized arguments: " ++ " ".intercalate arguments

end Misuse

end ChipEight.CommandLine
