/-!
The fixed sizes of the machine and its font, and the masks that cut numbers to size. A negative
integer counts as a two's complement word without end, so a mask always leaves a natural number, and
one that is no larger than the mask.
-/

namespace ChipEight

/-- The sprites of the sixteen hexadecimal digits, five rows each. -/
def fontSprites : List UInt8 :=
  [0xF0, 0x90, 0x90, 0x90, 0xF0, 0x20, 0x60, 0x20, 0x20, 0x70,
   0xF0, 0x10, 0xF0, 0x80, 0xF0, 0xF0, 0x10, 0xF0, 0x10, 0xF0,
   0x90, 0x90, 0xF0, 0x10, 0x10, 0xF0, 0x80, 0xF0, 0x10, 0xF0,
   0xF0, 0x80, 0xF0, 0x90, 0xF0, 0xF0, 0x10, 0x20, 0x40, 0x40,
   0xF0, 0x90, 0xF0, 0x90, 0xF0, 0xF0, 0x90, 0xF0, 0x10, 0xF0,
   0xF0, 0x90, 0xF0, 0x90, 0x90, 0xE0, 0x90, 0xE0, 0x90, 0xE0,
   0xF0, 0x80, 0x80, 0x80, 0xF0, 0xE0, 0x90, 0x90, 0x90, 0xE0,
   0xF0, 0x80, 0xF0, 0x80, 0xF0, 0xF0, 0x80, 0xF0, 0x80, 0x80]

def fontStart : Nat := 0x000

def fontSpriteHeight : Nat := 5

def memorySize : Nat := 4096

def addressMask : Nat := 0x0FFF

def wordMask : Nat := 0xFFFF

def byteMask : Nat := 0x00FF

def nibbleMask : Nat := 0x000F

namespace Bits

/-- The bits of an integer that stand under a mask. -/
def mask (value : Int) (bits : Nat) : Nat :=
  match value with
  | .ofNat n => n &&& bits
  | .negSucc n => bits - (n &&& bits)

theorem mask_le (value : Int) (bits : Nat) : mask value bits ≤ bits := by
  cases value with
  | ofNat n => exact Nat.and_le_right
  | negSucc n => exact Nat.sub_le _ _

end Bits

/-- Where a program is loaded and where it starts. -/
def programStart : Nat := 0x200

/-- The longest program that fits above its start. -/
def programLimit : Nat := memorySize - programStart

def defaultStackCapacity : Int := 16

def registerCount : Nat := 16

/-- The register VF, which the arithmetic operations use for a flag. -/
def flagRegister : Fin 16 := 0xF

/-- The register V0, which offsets a jump. -/
def offsetRegister : Fin 16 := 0

def keyCount : Nat := 16

def spriteWidth : Nat := 8

def screenWidth : Nat := 64

def screenHeight : Nat := 32

def defaultCyclesPerFrame : Int := 10

def defaultFramesPerSecond : Int := 60

/-- The side of a cell on the window. -/
def defaultScale : Int := 10

def defaultVolume : Float := 0.3

/-- The pitch of the buzzer, in periods per second. -/
def toneFrequency : Int := 440

def defaultSampleRate : Int := 44100

end ChipEight
