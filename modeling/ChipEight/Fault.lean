import ChipEight.Parameters

/-!
What can go wrong on the machine, as causes; the texts of those that a user is told about are in
`Fault.message`.
-/

namespace ChipEight

/-- Why a step of the machine or of one of its parts failed. -/
inductive Fault where
  | stackOverflow (capacity : Int)
  | stackUnderflow
  /-- A program is longer than the memory above its start. -/
  | programTooLong (length : Nat)
  /-- A number outside 0 to 255 was put where a byte belongs. -/
  | notAByte
  | outOfBounds
  /-- A sprite was drawn on a screen of width or height zero. -/
  | emptyScreen
  /-- A screen was asked for with a negative number of cells. -/
  | negativeScreen
  /-- A store was asked for with more places than a machine word counts. -/
  | uncountable
  | noRoom
  /-- A wave was asked for that never turns. -/
  | zeroFrequency
  deriving DecidableEq

namespace Fault

def message : Fault → String
  | stackOverflow capacity =>
      s!"The CHIP-8 stack can contain at most {capacity} addresses. Limit exceeded"
  | stackUnderflow => "Return with no active subroutine call"
  | programTooLong length =>
      s!"ROM is {length} bytes long, at most {programLimit} bytes fit in memory"
  | notAByte => "a byte must lie between 0 and 255"
  | outOfBounds => "position out of range"
  | emptyScreen => "the screen has no cells"
  | negativeScreen => "the screen has a negative size"
  | uncountable => "the size is out of range"
  | noRoom => "there is not enough room"
  | zeroFrequency => "the frequency is zero"

end Fault

end ChipEight
