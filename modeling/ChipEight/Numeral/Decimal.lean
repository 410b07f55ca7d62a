import ChipEight.Numeral.Binary64
import ChipEight.Numeral.Integer

/-!
Fractional numbers read from text: blanks around, a sign, digits of any script with a point, single
underscores between digits and an exponent, or the words for infinity and for no number.
-/

namespace ChipEight.Numeral

/-- A text without its underscores, if each of them stands between two digits. The flag tells
whether the character before was a digit. -/
def dropUnderscores (afterDigit : Bool) : List Char → Option (List Char)
  | [] => some []
  | '_' :: d :: rest =>
      if afterDigit && d.isDigit then (dropUnderscores true rest).map (d :: ·) else none
  | '_' :: [] => none
  | c :: rest => (dropUnderscores c.isDigit rest).map (c :: ·)

/-- The exponent behind a significand: nothing, or a letter, a sign and digits to the end. -/
def exponent? : List Char → Option Int
  | [] => some 0
  | letter :: rest =>
      if letter == 'e' || letter == 'E' then
        let (negative, digits) := splitSign rest
        if !digits.isEmpty && digits.all Char.isDigit then
          some (if negative then -(ofDigits digits : Int) else ofDigits digits)
        else none
      else none

/-- A significand and a power of ten. -/
def scientific? (text : List Char) : Option (Nat × Int) :=
  let whole := text.takeWhile Char.isDigit
  let rest := text.dropWhile Char.isDigit
  let (fraction, rest) := match rest with
    | '.' :: rest => (rest.takeWhile Char.isDigit, rest.dropWhile Char.isDigit)
    | rest => ([], rest)
  if whole.isEmpty && fraction.isEmpty then none
  else (exponent? rest).map fun e => (ofDigits (whole ++ fraction), e - fraction.length)

/-- The bits of an unsigned number. -/
def magnitude? (text : List Char) : Option Nat :=
  let word := String.ofList (text.map Char.toLower)
  if word == "inf" || word == "infinity" then some Binary64.infinityBits
  else if word == "nan" then some (Binary64.infinityBits + 1 <<< 51)
  else (scientific? text).map fun (significand, exponent) =>
    Binary64.decimalBits significand exponent

def decimal? (text : String) : Option Float :=
  match dropUnderscores false (normalize text) with
  | none => none
  | some plain =>
      let (negative, rest) := splitSign plain
      (magnitude? rest).map (Binary64.ofMagnitude negative)

end ChipEight.Numeral
