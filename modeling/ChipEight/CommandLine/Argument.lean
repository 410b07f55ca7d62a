import ChipEight.CommandLine.Flag
import ChipEight.Text.Character

/-!
Arguments told apart. A dash makes an argument a flag, unless it looks like a negative number or
holds a space; long flags may be abbreviated, and a value may be joined to its flag. After a lone
double dash no argument is a flag.
-/

namespace ChipEight.CommandLine

inductive Argument where
  | plain (text : String)
  /-- The lone double dash. -/
  | separator
  /-- A flag, whether it is spelled with one dash, and what is joined to it, behind an equals sign
  or directly. -/
  | option (flag : Flag) (short : Bool) (joined : Option (List Char))
  /-- It has the form of a flag, but no flag is spelled like it. -/
  | unknown (text : String)

namespace Argument

/-- The text before the first equals sign, and the text behind it if there is one. -/
def splitEquals (text : List Char) : List Char × Option (List Char) :=
  match text.dropWhile (· != '=') with
  | [] => (text, none)
  | _ :: value => (text.takeWhile (· != '='), some value)

/-- Digits, or a point with digits behind it and perhaps before it; a line feed may follow. -/
def isNumeral (text : List Char) : Bool :=
  let isDigit (c : Char) : Bool := (DecimalDigit.value? c).isSome
  let ends (rest : List Char) : Bool := rest == [] || rest == ['\n']
  let whole := text.takeWhile isDigit
  match text.dropWhile isDigit with
  | '.' :: rest =>
      !(rest.takeWhile isDigit).isEmpty && ends (rest.dropWhile isDigit)
  | rest => !whole.isEmpty && ends rest

def isShort (spelling : String) : Bool :=
  !"--".isPrefixOf spelling

/-- The flags that an argument with a dash may abbreviate or carry a joined value for. -/
def candidates (text : List Char) : List (String × Flag × Option (List Char)) :=
  match text with
  | '-' :: '-' :: _ =>
      let (start, value) := splitEquals text
      (Flag.completions (String.ofList start)).map fun (spelling, flag) => (spelling, flag, value)
  | dash :: letter :: value =>
      match Flag.ofLetter? letter with
      | some flag => [(String.ofList [dash, letter], flag, some value)]
      | none => []
  | _ => []

/-- An argument that starts with a dash and has more behind it, and that is no spelling as it
stands. -/
def classifyDashed (text : String) : Except Misuse Argument :=
  let chars := text.toList
  match splitEquals chars with
  | (spelling, some value) =>
      match Flag.ofSpelling? (String.ofList spelling) with
      | some flag => .ok (.option flag (isShort (String.ofList spelling)) (some value))
      | none => abbreviated chars
  | (_, none) => abbreviated chars
where
  abbreviated (chars : List Char) : Except Misuse Argument :=
    match candidates chars with
    | [(spelling, flag, joined)] => .ok (.option flag (isShort spelling) joined)
    | [] =>
        if isNumeral chars.tail || chars.contains ' ' then .ok (.plain text)
        else .ok (.unknown text)
    | several => .error (.ambiguous text (several.map Prod.fst))

def classify (text : String) : Except Misuse Argument :=
  match text.toList with
  | '-' :: rest =>
      match Flag.ofSpelling? text with
      | some flag => .ok (.option flag (isShort text) none)
      | none => if rest.isEmpty then .ok (.plain text) else classifyDashed text
  | _ => .ok (.plain text)

def classifyAll : List String → Except Misuse (List Argument)
  | [] => .ok []
  | text :: rest =>
      if text == "--" then .ok (.separator :: rest.map plain)
      else
        match classify text with
        | .error misuse => .error misuse
        | .ok argument => (classifyAll rest).map (argument :: ·)

end Argument

end ChipEight.CommandLine
