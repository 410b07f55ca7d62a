import ChipEight.Machine.Execute

/-!
Cycles and frames. A cycle fetches, decodes and executes one instruction, or polls the keypad while
the machine is suspended; a frame is a number of cycles and one tick of the timers.
-/

namespace ChipEight.Machine

/-- Read the next opcode and move past it. -/
def fetch : Step Machine Instruction := do
  let machine ← Step.get
  let high ← onMemory (Memory.read machine.pc)
  let low ← onMemory (Memory.read (machine.pc + 1))
  let opcode := (high.toNat <<< 8 ||| low.toNat : Nat)
  Step.modify fun machine => { machine with opcode := opcode }
  advance
  pure (.decode opcode)

/-- Write down the instruction about to be executed, with the address that it was fetched from. -/
def trace (instruction : Instruction) : Step Machine Unit := do
  let machine ← Step.get
  Step.note (.executing (Bits.mask (machine.pc - 2) wordMask) instruction)

def cycle : Step Machine Unit := do
  let machine ← Step.get
  match machine.awaiting with
  | some register => resume register
  | none => do
      let instruction ← fetch
      trace instruction
      execute instruction

def cycles : Nat → Step Machine Unit
  | 0 => pure ()
  | count + 1 => do
      cycle
      cycles count

/-- Run cycles until one fails; tell how many succeeded and what ended the run. -/
def cyclesUntilFault : Nat → Step Machine (Nat × Option Fault)
  | 0 => pure (0, none)
  | count + 1 => do
      match ← Step.caught cycle with
      | .error fault => pure (0, some fault)
      | .ok () => do
          let (done, ended) ← cyclesUntilFault count
          pure (done + 1, ended)

def takeDirty : Step Machine Bool :=
  onDisplay Display.takeDirty

/-- Run the cycles of a frame, tick the timers, and tell whether the display has to be painted. A
fault ends the frame before the tick. -/
def frame (count : Int) : Step Machine Bool := do
  cycles count.toNat
  Step.modify tick
  takeDirty

end ChipEight.Machine
