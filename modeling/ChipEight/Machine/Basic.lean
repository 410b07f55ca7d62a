import ChipEight.CallStack
import ChipEight.Display
import ChipEight.Keypad
import ChipEight.Memory
import ChipEight.Registers

/-!
The state of the machine, its text, and steps on its parts.
-/

namespace ChipEight

variable {α : Type}

structure Machine where
  memory : Memory
  stack : CallStack
  registers : Registers
  /-- The program counter: the address of the next instruction. -/
  pc : Int
  /-- The index register I. -/
  index : Int
  timers : Timers
  display : Display
  keypad : Keypad
  /-- The register that waits for a key, while the machine is suspended. -/
  awaiting : Option Int
  /-- The opcode fetched last. -/
  opcode : Int
  random : RandomBytes

namespace Machine

def powerOn (capacity : Int) (random : RandomBytes) : Machine where
  memory := .initial
  stack := .empty capacity
  registers := .zero
  pc := programStart
  index := 0
  timers := .zero
  display := .blank screenWidth screenHeight
  keypad := .released
  awaiting := none
  opcode := 0
  random := random

/-- Back to the state after power on, the loaded program included; what was drawn at random stays
drawn. -/
def reset (machine : Machine) : Machine :=
  powerOn machine.stack.capacity machine.random

def beeping (machine : Machine) : Bool :=
  0 < machine.timers.sound

def onMemory (step : Step Memory α) : Step Machine α :=
  Step.on memory (fun machine part => { machine with memory := part }) step

def onStack (step : Step CallStack α) : Step Machine α :=
  Step.on stack (fun machine part => { machine with stack := part }) step

def onRegisters (step : Step Registers α) : Step Machine α :=
  Step.on registers (fun machine part => { machine with registers := part }) step

def onKeypad (step : Step Keypad α) : Step Machine α :=
  Step.on keypad (fun machine part => { machine with keypad := part }) step

def onDisplay (step : Step Display α) : Step Machine α :=
  Step.on display (fun machine part => { machine with display := part }) step

def onRandom (step : Step RandomBytes α) : Step Machine α :=
  Step.on random (fun machine part => { machine with random := part }) step

def load (program : List Int) : Step Machine Unit :=
  onMemory (Memory.load program)

def value (x : Int) : Step Machine Nat :=
  onRegisters (Registers.value x)

def put (x value : Int) : Step Machine Unit :=
  onRegisters (Registers.put x value)

def jumpTo (address : Int) : Step Machine Unit :=
  Step.modify fun machine => { machine with pc := address }

def pointTo (address : Int) : Step Machine Unit :=
  Step.modify fun machine => { machine with index := address }

/-- Move the program counter past one instruction. -/
def advance : Step Machine Unit :=
  Step.modify fun machine => { machine with pc := Bits.mask (machine.pc + 2) wordMask }

def tick (machine : Machine) : Machine :=
  { machine with timers := machine.timers.tick }

def report (machine : Machine) : String :=
  let bytes := machine.registers.bytes.toList.map fun byte => toString byte.toNat
  let registers :=
    s!"PC_REGISTER:0x{Hex.padded 4 machine.pc} | IDX_REGISTER:0x{Hex.padded 4 machine.index} | "
      ++ s!"VARIABLE_REGISTERS:{Report.listed bytes}"
  let stack := s!"STACK:{machine.stack.report}"
  let devices :=
    s!"{machine.timers.report} | {machine.keypad.report} | {machine.display.report}"
  let flags :=
    s!"LAST_OPCODE: 0x{Hex.padded 4 machine.opcode} | "
      ++ s!"AWAITING_KEY: {Report.numberOrNone machine.awaiting}"
  "\n".intercalate [registers, stack, devices, flags]

end Machine

end ChipEight
