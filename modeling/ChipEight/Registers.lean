import ChipEight.Step
import ChipEight.Store

/-!
What the machine computes with beside its memory: the sixteen byte registers V0 to VF, the delay
timer and the sound timer, and a source of random bytes, which is an endless sequence of which some
have been used.
-/

namespace ChipEight

structure Registers where
  bytes : Array UInt8
  deriving DecidableEq

namespace Registers

def zero : Registers :=
  ⟨Array.replicate registerCount 0⟩

def value (x : Int) : Step Registers Nat := do
  let registers ← Step.get
  let byte ← Step.ofExcept (Store.item registers.bytes x)
  pure byte.toNat

/-- Put a value into a register; a value that is no byte is refused. -/
def put (x value : Int) : Step Registers Unit := do
  let registers ← Step.get
  let bytes ← Step.ofExcept (Store.assignByte registers.bytes x value)
  Step.modify fun _ => ⟨bytes⟩

/-- The values of a number of registers from one on. -/
def valuesFrom (x : Int) : Nat → Step Registers (List Nat)
  | 0 => pure []
  | count + 1 => do
      let first ← value x
      let rest ← valuesFrom (x + 1) count
      pure (first :: rest)

/-- Put bytes into the registers from one on; the others stay. -/
def putFrom (x : Int) : List UInt8 → Step Registers Unit
  | [] => pure ()
  | byte :: rest => do
      put x byte.toNat
      putFrom (x + 1) rest

end Registers

structure Timers where
  delay : Int
  sound : Int
  deriving DecidableEq

namespace Timers

def zero : Timers :=
  ⟨0, 0⟩

/-- One less, unless nothing is left. -/
def countDown (ticks : Int) : Int :=
  if 0 < ticks then ticks - 1 else ticks

def tick (timers : Timers) : Timers :=
  ⟨countDown timers.delay, countDown timers.sound⟩

def report (timers : Timers) : String :=
  s!"Timers(delay={timers.delay}, sound={timers.sound})"

end Timers

structure RandomBytes where
  byteAt : Nat → UInt8
  drawn : Nat

namespace RandomBytes

/-- Nothing drawn yet. -/
def ofSequence (byteAt : Nat → UInt8) : RandomBytes :=
  ⟨byteAt, 0⟩

/-- The bytes of an array again and again; zeros if it is empty. -/
def cycling (bytes : Array UInt8) : RandomBytes :=
  ofSequence fun i => (bytes[i % bytes.size]?).getD 0

def draw : Step RandomBytes UInt8 := do
  let source ← Step.get
  Step.modify fun source => { source with drawn := source.drawn + 1 }
  pure (source.byteAt source.drawn)

end RandomBytes

end ChipEight
