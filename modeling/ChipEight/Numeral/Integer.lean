import ChipEight.Text.Character

/-!
Integers read from text: blanks around, a sign, and decimal digits of any script, with single
underscores between digits.
-/

namespace ChipEight.Numeral

/-- More digits than this are not read. -/
def digitLimit : Nat := 4300

/-- A text with digits of all scripts written in ASCII and without the blanks around it. -/
def normalize (text : String) : List Char :=
  (Blank.trim text.toList).map fun c =>
    match DecimalDigit.value? c with
    | some value => Char.ofNat ('0'.toNat + value)
    | none => c

/-- The digits of a numeral without its underscores, if each of them stands between two digits. -/
def ungroup : List Char → Option (List Char)
  | [] => none
  | [d] => if d.isDigit then some [d] else none
  | d :: '_' :: rest => if d.isDigit then (ungroup rest).map (d :: ·) else none
  | d :: rest => if d.isDigit then (ungroup rest).map (d :: ·) else none

/-- The number that ASCII digits write. -/
def ofDigits (digits : List Char) : Nat :=
  digits.foldl (fun value d => 10 * value + (d.toNat - '0'.toNat)) 0

def natural? (text : List Char) : Option Nat :=
  match ungroup text with
  | some digits => if digits.length ≤ digitLimit then some (ofDigits digits) else none
  | none => none

/-- A sign in front, if any, and the rest. -/
def splitSign : List Char → Bool × List Char
  | '-' :: rest => (true, rest)
  | '+' :: rest => (false, rest)
  | rest => (false, rest)

def integer? (text : String) : Option Int :=
  let (negative, rest) := splitSign (normalize text)
  (natural? rest).map fun n => if negative then -(n : Int) else n

end ChipEight.Numeral
