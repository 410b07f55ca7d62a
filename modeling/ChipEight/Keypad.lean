import ChipEight.Step
import ChipEight.Store
import ChipEight.Text.Report

/-!
The sixteen keys, each a byte that is one while the key is down. The front end presses and releases
them; the machine only looks.
-/

namespace ChipEight

structure Keypad where
  keys : Array UInt8
  deriving DecidableEq

namespace Keypad

def released : Keypad :=
  ⟨Array.replicate keyCount 0⟩

/-- The key that the lowest four bits of a number name. -/
def keyOf (number : Int) : Nat :=
  Bits.mask number nibbleMask

def put (number value : Int) : Step Keypad Unit := do
  let keypad ← Step.get
  let keys ← Step.ofExcept (Store.assignByte keypad.keys (keyOf number) value)
  Step.modify fun _ => ⟨keys⟩

def press (number : Int) : Step Keypad Unit :=
  put number 1

def release (number : Int) : Step Keypad Unit :=
  put number 0

/-- Whether a key is down. Numbers past the last key name no key and read as up; negative ones
count from the end. -/
def get (keypad : Keypad) (number : Int) : Except Fault Bool :=
  if number < keyCount then (Store.item keypad.keys number).map (· == 1) else .ok false

def firstOf (keypad : Keypad) : List Nat → Except Fault (Option Nat)
  | [] => .ok none
  | key :: rest =>
      match Store.item keypad.keys key with
      | .error fault => .error fault
      | .ok byte => if byte != 0 then .ok (some key) else keypad.firstOf rest

/-- The lowest key that is down. -/
def first (keypad : Keypad) : Except Fault (Option Nat) :=
  keypad.firstOf (List.range keyCount)

def untouched (keypad : Keypad) : Bool :=
  !keypad.keys.any (· != 0)

/-- The numbers of the keys that are down, ascending. -/
def pressed (keypad : Keypad) : List Nat :=
  (List.range keyCount).filter fun key => (keypad.keys[key]?).getD 0 != 0

def report (keypad : Keypad) : String :=
  s!"Keypad(pressed={Report.quoted (keypad.pressed.map fun key : Nat => Hex.literal key)})"

end Keypad

end ChipEight
