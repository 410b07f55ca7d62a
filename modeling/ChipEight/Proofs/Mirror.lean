import ChipEight.Proofs.Resemblance

/-!
Addresses wider than the memory. The program counter, I and the return addresses may lie above the
memory, but only their lowest twelve bits are ever looked at: two machines whose addresses name the
same cells go through the same run.
-/

namespace ChipEight

def SameCell (address address' : Int) : Prop :=
  address ≡ address' [ZMOD 0x1000]

instance (address address' : Int) : Decidable (SameCell address address') :=
  inferInstanceAs (Decidable (_ % _ = _ % _))

structure CallStack.Mirrored (stack stack' : CallStack) : Prop where
  capacity : stack.capacity = stack'.capacity
  depth : stack.depth = stack'.depth
  live : List.Forall₂ SameCell stack.live stack'.live

/-- Two machines that differ at most in the high bits of their addresses, in stale slots of their
stacks and in the opcode fetched last. -/
structure Machine.Mirrored (machine machine' : Machine) : Prop where
  memory : machine.memory = machine'.memory
  stack : machine.stack.Mirrored machine'.stack
  registers : machine.registers = machine'.registers
  pc : SameCell machine.pc machine'.pc
  index : SameCell machine.index machine'.index
  timers : machine.timers = machine'.timers
  display : machine.display = machine'.display
  keypad : machine.keypad = machine'.keypad
  awaiting : machine.awaiting = machine'.awaiting
  random : machine.random = machine'.random

namespace SameCell

variable {address address' : Int}

protected theorem refl (address : Int) : SameCell address address :=
  Int.ModEq.refl address

theorem add (h : SameCell address address') (offset : Int) :
    SameCell (address + offset) (address' + offset) :=
  Int.ModEq.add_right offset h

theorem mask (h : SameCell address address') :
    SameCell (Bits.mask address wordMask) (Bits.mask address' wordMask) :=
  (Bits.mask_wordMask_modEq address).trans (h.trans (Bits.mask_wordMask_modEq address').symm)

end SameCell

theorem CallStack.Mirrored.refl (stack : CallStack) : stack.Mirrored stack :=
  ⟨rfl, rfl, List.forall₂_same.mpr fun address _ => .refl address⟩

theorem Machine.Mirrored.refl (machine : Machine) : machine.Mirrored machine :=
  ⟨rfl, .refl _, rfl, .refl _, .refl _, rfl, rfl, rfl, rfl, rfl⟩

/-- Mirrored machines whose stacks have a slot for every live address. -/
structure Machine.Aligned (machine machine' : Machine) : Prop where
  mirrored : machine.Mirrored machine'
  stored : machine.stack.Stored
  stored' : machine'.stack.Stored

/-! ### Mirrored machines resemble each other -/

/-- Addresses that name the same cell may be exchanged; the opcode fetched last is overlooked. -/
def Resemblance.mirrored : Resemblance :=
  { exact with
    stack := CallStack.Paired SameCell
    address := SameCell
    opcode := fun _ _ => True
    memory_write := fun value haddress =>
      Memory.agree_write (Memory.cellOf_eq_iff.mpr haddress) value
    stack_empty := CallStack.Paired.empty
    stack_push := CallStack.agree_push
    stack_pop := CallStack.agree_pop
    address_refl := .refl
    address_add := fun offset haddress => haddress.add offset
    address_mask := .mask
    opcode_refl := fun _ => trivial }

theorem Resemblance.transparent_mirrored : mirrored.Transparent :=
  fun _ _ haddress => Memory.agree_read (Memory.cellOf_eq_iff.mpr haddress)

namespace Machine

variable {machine machine' : Machine}

theorem Aligned.resembles (h : machine.Aligned machine') :
    machine.Resembles .mirrored machine' where
  memory := h.mirrored.memory
  stack := ⟨h.mirrored.stack.capacity, h.mirrored.stack.depth, h.mirrored.stack.live, h.stored,
    h.stored'⟩
  registers := h.mirrored.registers
  pc := h.mirrored.pc
  index := h.mirrored.index
  delay := congrArg Timers.delay h.mirrored.timers
  sound := congrArg Timers.sound h.mirrored.timers
  display := by
    rw [h.mirrored.display]
    exact ⟨rfl, rfl, rfl, rfl⟩
  keypad := h.mirrored.keypad
  awaiting := h.mirrored.awaiting
  opcode := trivial
  random := h.mirrored.random

theorem Resembles.mirrored (h : machine.Resembles .mirrored machine') :
    machine.Mirrored machine' where
  memory := h.memory
  stack := ⟨h.stack.capacity, h.stack.depth, h.stack.live⟩
  registers := h.registers
  pc := h.pc
  index := h.index
  timers := Timers.ext h.delay h.sound
  display := Display.ext h.display.width h.display.height h.display.cells h.display.dirty
  keypad := h.keypad
  awaiting := h.awaiting
  random := h.random

/-- The program counters name the same cells, so they point at the same opcode. -/
theorem Mirrored.next?_eq (h : machine.Mirrored machine') : machine.next? = machine'.next? := by
  have hhigh : machine'.memory.get machine.pc = machine'.memory.get machine'.pc :=
    Memory.get_congr h.pc
  have hlow : machine'.memory.get (machine.pc + 1) = machine'.memory.get (machine'.pc + 1) :=
    Memory.get_congr (h.pc.add 1)
  rw [next?, next?, h.awaiting, nextOpcode, nextOpcode, h.memory, hhigh, hlow]

end Machine

end ChipEight
