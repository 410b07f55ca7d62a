import ChipEight.Machine.Cycle
import ChipEight.Proofs.CallStackLemmas
import ChipEight.Proofs.DisplayLemmas
import ChipEight.Proofs.KeypadLemmas
import ChipEight.Proofs.MemoryLemmas
import ChipEight.Proofs.RegisterLemmas

/-!
Whole machines, whose stores have their sizes, so that no instruction reaches for something that is
missing; and well-formed ones, in which every number of the state lies in its range as well.
-/

namespace ChipEight

structure CallStack.WellFormed (stack : CallStack) : Prop where
  depth_le : (stack.depth : Int) ≤ max stack.capacity 0
  live_words : ∀ address ∈ stack.live, IsWord address

structure Timers.WellFormed (timers : Timers) : Prop where
  delay : IsByte timers.delay
  sound : IsByte timers.sound

structure Display.WellFormed (display : Display) : Prop where
  width : display.width = screenWidth
  height : display.height = screenHeight
  size : display.cells.size = screenWidth * screenHeight
  bits : ∀ cell ∈ display.cells, IsBit cell

/-- The memory, the registers, the keypad and the call stack have all that belongs to them, and what
waits for a key is a register. -/
structure Machine.Whole (machine : Machine) : Prop where
  memory : machine.memory.Whole
  registers : machine.registers.Whole
  keypad : machine.keypad.Whole
  stored : machine.stack.Stored
  awaiting : ∀ register ∈ machine.awaiting, ∃ x : Fin 16, register = x.val

structure Machine.WellFormed (machine : Machine) : Prop extends machine.Whole where
  pc : IsWord machine.pc
  index : IsWord machine.index
  opcode : IsWord machine.opcode
  stack : machine.stack.WellFormed
  timers : machine.timers.WellFormed
  display : machine.display.WellFormed

namespace CallStack.WellFormed

variable {stack : CallStack}

theorem pushed (hstack : stack.WellFormed) (hstored : stack.Stored) {address : Int}
    (haddress : IsWord address) (hroom : stack.depth < stack.capacity) :
    (stack.pushed address).WellFormed where
  depth_le := by
    simp only [CallStack.pushed]
    omega
  live_words := by
    rw [live_pushed hstored hroom]
    intro live hlive
    rcases List.mem_append.mp hlive with hbelow | hlatest
    · exact hstack.live_words live hbelow
    · rw [List.mem_singleton.mp hlatest]
      exact haddress

theorem popped (hstack : stack.WellFormed) : stack.popped.WellFormed where
  depth_le := by
    have hdepth := hstack.depth_le
    simp only [CallStack.popped]
    omega
  live_words := by
    intro live hlive
    refine hstack.live_words live ?_
    exact List.take_subset_take_left stack.slots.toList (Nat.sub_le stack.depth 1) hlive

theorem empty (capacity : Int) : (CallStack.empty capacity).WellFormed where
  depth_le := Int.le_max_right capacity 0
  live_words := by simp

end CallStack.WellFormed

namespace Timers.WellFormed

theorem zero : Timers.zero.WellFormed :=
  ⟨by decide, by decide⟩

theorem tick {timers : Timers} (htimers : timers.WellFormed) : timers.tick.WellFormed := by
  have hdelay := htimers.delay
  have hsound := htimers.sound
  constructor
  · simp only [Timers.tick, countDown]
    split <;> omega
  · simp only [Timers.tick, countDown]
    split <;> omega

end Timers.WellFormed

namespace Display.WellFormed

variable {display : Display}

theorem proper (hdisplay : display.WellFormed) : display.Proper where
  width_pos := by rw [hdisplay.width]; decide
  height_pos := by rw [hdisplay.height]; decide
  size_eq := by rw [hdisplay.size, hdisplay.width, hdisplay.height, Nat.cast_mul]
  bits := hdisplay.bits

theorem blank : (Display.blank screenWidth screenHeight).WellFormed :=
  ⟨rfl, rfl, Array.size_replicate, fun _ hcell => .inl (Array.mem_replicate.mp hcell).2⟩

theorem redrawn (hdisplay : display.WellFormed) {cells : Array UInt8} (dirty : Bool)
    (hsize : cells.size = display.cells.size) (hbits : ∀ cell ∈ cells, IsBit cell) :
    { display with cells := cells, dirty := dirty }.WellFormed :=
  ⟨hdisplay.width, hdisplay.height, hsize.trans hdisplay.size, hbits⟩

theorem clear (hdisplay : display.WellFormed) : display.clear.WellFormed where
  width := hdisplay.width
  height := hdisplay.height
  size := by
    have hsize := size_clear hdisplay.proper
    rw [← hdisplay.size]
    exact_mod_cast hsize
  bits := bits_clear display

end Display.WellFormed

theorem Machine.whole_powerOn (capacity : Int) (random : RandomBytes) :
    (powerOn capacity random).Whole where
  memory := Memory.whole_initial
  registers := Registers.whole_zero
  keypad := Keypad.whole_released
  stored := CallStack.stored_empty capacity
  awaiting := fun _ hregister => nomatch hregister

theorem Machine.wellFormed_powerOn (capacity : Int) (random : RandomBytes) :
    (powerOn capacity random).WellFormed where
  toWhole := whole_powerOn capacity random
  pc := (by decide : IsWord (programStart : Nat))
  index := (by decide : IsWord 0)
  opcode := (by decide : IsWord 0)
  stack := .empty capacity
  timers := .zero
  display := .blank

theorem Machine.stack_powerOn (capacity : Int) (random : RandomBytes) :
    (powerOn capacity random).stack = .empty capacity := rfl

theorem Machine.capacity_reset (machine : Machine) :
    machine.reset.stack.capacity = machine.stack.capacity := by
  -- Comparing the two machines as a whole would unfold the memory.
  have hstack := stack_powerOn machine.stack.capacity machine.random
  rw [reset, hstack]
  rfl

theorem Machine.wellFormed_reset (machine : Machine) : machine.reset.WellFormed := by
  rw [reset]
  exact wellFormed_powerOn machine.stack.capacity machine.random

end ChipEight
