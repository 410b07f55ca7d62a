import ChipEight.Step
import ChipEight.Store

/-!
The memory: 4096 bytes. An access uses the lowest twelve bits of its address and is written down
when the address lies above the memory; a write keeps the lowest eight bits of its value.
-/

namespace ChipEight

structure Memory where
  cells : Array UInt8
  deriving DecidableEq

namespace Memory

/-- The font at its place and zeros elsewhere. -/
def initial : Memory where
  cells := Store.splice (Array.replicate memorySize 0) fontStart (fontStart + fontSprites.length)
    fontSprites.toArray

def cellOf (address : Int) : Nat :=
  Bits.mask address addressMask

/-- Write down the use of an address above the memory. -/
def checkAddress (address : Int) : Step Memory Unit :=
  if addressMask < address then Step.note (.outOfRange address) else pure ()

def read (address : Int) : Step Memory UInt8 := do
  checkAddress address
  let memory ← Step.get
  Step.ofExcept (Store.item memory.cells (cellOf address))

def write (address value : Int) : Step Memory Unit := do
  checkAddress address
  let memory ← Step.get
  let cells ← Step.ofExcept
    (Store.assignByte memory.cells (cellOf address) (Bits.mask value byteMask))
  Step.modify fun _ => ⟨cells⟩

def readFrom (address : Int) : Nat → Step Memory (List UInt8)
  | 0 => pure []
  | count + 1 => do
      let byte ← read address
      let bytes ← readFrom (address + 1) count
      pure (byte :: bytes)

def writeFrom (address : Int) : List Int → Step Memory Unit
  | [] => pure ()
  | value :: rest => do
      write address value
      writeFrom (address + 1) rest

/-- Put a program at its start, in the place of as many bytes. -/
def install (memory : Memory) (program : Array UInt8) : Memory where
  cells := Store.splice memory.cells programStart (programStart + program.size) program

/-- Load a program. A program that is too long is refused before its values are looked at, and
nothing is written unless all of them are bytes. -/
def load (program : List Int) : Step Memory Unit :=
  if programLimit < program.length then
    Step.fail (.programTooLong program.length)
  else do
    let bytes ← Step.ofExcept (Byte.ofInts? program)
    Step.modify (·.install bytes.toArray)
    Step.note (.loaded program.length)

/-- The cells between two bounds, without wrapping. -/
def dump (memory : Memory) (start stop : Int) : List UInt8 :=
  (memory.cells.extract (Store.clamp memory.cells.size start)
    (Store.clamp memory.cells.size stop)).toList

end Memory

end ChipEight
