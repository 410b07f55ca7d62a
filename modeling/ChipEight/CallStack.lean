import ChipEight.Host
import ChipEight.Step
import ChipEight.Store
import ChipEight.Text.Report

/-!
The call stack: slots for return addresses and a pointer to the first free one. A return leaves its
slot as it was; only the slots below the pointer are live.
-/

namespace ChipEight

/-- The capacity is kept as it was asked for; one of zero or less is always full. -/
structure CallStack where
  capacity : Int
  slots : Array Int
  depth : Nat
  deriving DecidableEq

namespace CallStack

def empty (capacity : Int) : CallStack :=
  ⟨capacity, Array.replicate capacity.toNat 0, 0⟩

/-- An empty stack, if there is room for its slots. -/
def ofCapacity? (room : Room) (capacity : Int) : Except Fault CallStack :=
  (room.check capacity 8).map fun () => empty capacity

/-- The return addresses of the active calls, the latest last. -/
def live (stack : CallStack) : List Int :=
  stack.slots.toList.take stack.depth

def push (address : Int) : Step CallStack Unit := do
  let stack ← Step.get
  if stack.capacity ≤ stack.depth then
    Step.fail (.stackOverflow stack.capacity)
  else do
    let slots ← Step.ofExcept (Store.assign stack.slots stack.depth address)
    Step.modify fun stack => { stack with slots := slots, depth := stack.depth + 1 }

def pop : Step CallStack Int := do
  let stack ← Step.get
  match stack.depth with
  | 0 => Step.fail .stackUnderflow
  | depth + 1 => do
      Step.modify fun stack => { stack with depth := depth }
      Step.ofExcept (Store.item stack.slots depth)

def report (stack : CallStack) : String :=
  s!"Stack({Report.quoted (stack.live.map Hex.literal)})"

end CallStack

end ChipEight
