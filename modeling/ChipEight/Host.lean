import ChipEight.Fault

/-!
What the program runs on: room for stores, windows, a sound device and a clock. Each is known only
by what it answers, so what is proved of the program holds on every host that answers as a statement
asks.
-/

namespace ChipEight

/-- Whether there is room for a store of some places with a number of bytes each, or else why not.
-/
structure Room where
  check : (places : Int) → (width : Nat) → Except Fault Unit

namespace Room

def ample : Room :=
  ⟨fun _ _ => .ok ()⟩

/-- A signed machine word counts up to here. -/
def wordBound : Nat := 1 <<< 63

/-- Room for stores whose places a machine word counts and whose bytes are fewer than a limit. -/
def below (limit : Nat) : Room where
  check places width :=
    if places < -(wordBound : Int) ∨ (wordBound : Int) ≤ places then .error .uncountable
    else if limit ≤ places * width then .error .noRoom
    else .ok ()

end Room

/-- Asked for a width and a height, a window system opens a window, which need not have that size,
or tells why it does not. A number that it is given to paint with is used as it is kept. -/
structure WindowSystem where
  opened : (width height : Int) → Except String (Nat × Nat)
  kept : Int → Int

namespace WindowSystem

/-- Every window is opened as it is asked for, and every number is kept as it is. -/
def boundless : WindowSystem where
  opened width height := .ok (width.toNat, height.toNat)
  kept number := number

/-- Of every number the lowest 32 bits are kept, and a window with a negative side is refused. -/
def narrow : WindowSystem :=
  let kept := fun number : Int => number.bmod 0x100000000
  { opened := fun width height =>
      if kept width < 0 ∨ kept height < 0 then .error "invalid size"
      else .ok ((kept width).toNat, (kept height).toNat)
    kept := kept }

end WindowSystem

/-- How a sound device plays: samples per second, bits of a sample (negative if signed), channels.
-/
structure AudioFormat where
  rate : Int
  size : Int
  channels : Int
  deriving DecidableEq

/-- The sound device as it is found: the format with which it already runs, and what an attempt to
open it gives. -/
structure Mixer where
  running : Option AudioFormat
  opened : AudioFormat → Except String AudioFormat

/-- A clock waits between frames, if it can keep the rate that it is asked for. The rate is in
frames a second and may have been left blank. -/
structure Clock where
  keeps : (rate : Option Int) → Bool

namespace Clock

/-- The rates that round to a number of double precision. -/
def doubles : Clock where
  keeps
    | some rate => decide (rate.natAbs < (1 <<< 1024) - (1 <<< 970))
    | none => false

end Clock

end ChipEight
