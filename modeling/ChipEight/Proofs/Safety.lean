import ChipEight.Proofs.Commands

/-!
Safety: whatever is done to a machine, and however often it fails on the way, its numbers stay in
their ranges, and a cycle can only fail because the program misuses the call stack.
-/

namespace ChipEight

variable {α : Type}

/-- What a call stack of some capacity is misused by. -/
def Fault.MisusesStack (capacity : Int) (fault : Fault) : Prop :=
  fault = .stackOverflow capacity ∨ fault = .stackUnderflow

namespace Machine

/-- The invariant of runs: a well-formed machine whose stack keeps its capacity. -/
def Sound (capacity : Int) (machine : Machine) : Prop :=
  machine.WellFormed ∧ machine.stack.capacity = capacity

variable {capacity : Int} {F : Fault → Prop}

theorem keeps_sound_modify {f : Machine → Machine}
    (hwellFormed : ∀ machine, machine.WellFormed → (f machine).WellFormed)
    (hcapacity : ∀ machine, (f machine).stack.capacity = machine.stack.capacity) :
    Step.Keeps (Sound capacity) F (Step.modify f) :=
  .modify fun machine hmachine =>
    ⟨hwellFormed machine hmachine.1, (hcapacity machine).trans hmachine.2⟩

theorem keeps_sound_cycle :
    Step.Keeps (Sound capacity) (Fault.MisusesStack capacity) cycle := by
  rintro traced machine ⟨hmachine, rfl⟩
  have hturn := cycle_turn traced hmachine
  refine ⟨⟨hturn.wellFormed hmachine, hturn.capacity_eq⟩, fun fault hfault => ?_⟩
  rw [hfault] at hturn
  exact hturn.fault_eq

theorem keeps_sound_cycles (count : Nat) :
    Step.Keeps (Sound capacity) (Fault.MisusesStack capacity) (cycles count) := by
  induction count with
  | zero => exact .pure ()
  | succ count ih => exact .bind keeps_sound_cycle fun _ => ih

theorem keeps_sound_tick : Step.Keeps (Sound capacity) F (Step.modify tick) :=
  keeps_sound_modify (fun _ hmachine => { hmachine with timers := hmachine.timers.tick })
    fun _ => rfl

theorem keeps_sound_takeDirty : Step.Keeps (Sound capacity) F takeDirty := by
  rintro traced machine ⟨hmachine, hcapacity⟩
  have hdisplay := hmachine.display.redrawn false rfl hmachine.display.bits
  exact ⟨⟨{ hmachine with display := hdisplay }, hcapacity⟩, fun _ hfault => nomatch hfault⟩

theorem keeps_sound_frame (count : Int) :
    Step.Keeps (Sound capacity) (Fault.MisusesStack capacity) (frame count) :=
  .bind (keeps_sound_cycles count.toNat) fun _ =>
    .bind keeps_sound_tick fun _ => keeps_sound_takeDirty

theorem keeps_sound_load (program : List Int) :
    Step.Keeps (Sound capacity) (fun _ => True) (load program) := by
  rintro traced machine ⟨hmachine, hcapacity⟩
  have hmemory := Memory.whole_load hmachine.memory program traced
  exact ⟨⟨{ hmachine with memory := hmemory }, hcapacity⟩, fun _ _ => trivial⟩

theorem keeps_sound_onKeypad (key : Int) (down : Bool) :
    Step.Keeps (Sound capacity) F (onKeypad (Keypad.put key down.toNat)) := by
  rintro traced machine ⟨hmachine, hcapacity⟩
  rw [onKeypad, Step.on_apply, Keypad.put_eq hmachine.keypad key down]
  have hkeypad := Keypad.whole_moved hmachine.keypad key down
  exact ⟨⟨{ hmachine with keypad := hkeypad }, hcapacity⟩, fun _ hfault => nomatch hfault⟩

theorem keeps_sound_perform (command : Command) :
    Step.Keeps (Sound capacity) (fun _ => True) (perform command) := by
  have hmisuse : ∀ fault, Fault.MisusesStack capacity fault → True := fun _ _ => trivial
  cases command with
  | load program => exact .bind (keeps_sound_load program) fun _ => .pure none
  | cycle => exact .bind (keeps_sound_cycle.mono hmisuse) fun _ => .pure none
  | frame count =>
      exact .bind ((keeps_sound_frame count).mono hmisuse) fun dirty => .pure (some dirty)
  | tick => exact .bind keeps_sound_tick fun _ => .pure none
  | press key => exact .bind (keeps_sound_onKeypad key true) fun _ => .pure none
  | release key => exact .bind (keeps_sound_onKeypad key false) fun _ => .pure none
  | takeDirty => exact .bind keeps_sound_takeDirty fun dirty => .pure (some dirty)
  | reset =>
      exact .bind (keeps_sound_modify (fun machine _ => wellFormed_reset machine) capacity_reset)
        fun _ => .pure none

theorem sound_powerOn (capacity : Int) (random : RandomBytes) :
    (powerOn capacity random).Sound capacity :=
  ⟨wellFormed_powerOn capacity random, rfl⟩

theorem sound_after (traced : Bool) (commands : List Command) {machine : Machine}
    (hmachine : machine.Sound capacity) : (machine.after traced commands).Sound capacity := by
  induction commands generalizing machine with
  | nil => exact hmachine
  | cons command rest ih =>
      exact ih (keeps_sound_perform command traced machine hmachine).1

theorem whole_after (traced : Bool) (capacity : Int) (random : RandomBytes)
    (commands : List Command) : ((powerOn capacity random).after traced commands).Whole :=
  (sound_after traced commands (sound_powerOn capacity random)).1.toWhole

/-- Every number of a machine in its range, the stores with their sizes. -/
structure Bounded (capacity : Int) (machine : Machine) : Prop where
  memory : machine.memory.cells.size = memorySize ∧
    ∀ byte ∈ machine.memory.cells, IsByte byte.toNat
  registers : machine.registers.bytes.size = registerCount ∧
    ∀ byte ∈ machine.registers.bytes, IsByte byte.toNat
  pc : IsWord machine.pc
  index : IsWord machine.index
  opcode : IsWord machine.opcode
  capacity_eq : machine.stack.capacity = capacity
  slots : machine.stack.slots.size = capacity.toNat
  depth : (machine.stack.depth : Int) ≤ max capacity 0
  live : machine.stack.live.length = machine.stack.depth ∧
    ∀ address ∈ machine.stack.live, IsWord address
  timers : IsByte machine.timers.delay ∧ IsByte machine.timers.sound
  cells : machine.display.width = screenWidth ∧ machine.display.height = screenHeight ∧
    machine.display.cells.size = screenWidth * screenHeight ∧
    ∀ cell ∈ machine.display.cells, cell = 0 ∨ cell = 1
  keys : machine.keypad.keys.size = keyCount ∧
    ∀ key ∈ machine.keypad.keys, key = 0 ∨ key = 1
  awaiting : ∀ register ∈ machine.awaiting, 0 ≤ register ∧ register ≤ 0xF

theorem Sound.bounded {machine : Machine} (hmachine : machine.Sound capacity) :
    machine.Bounded capacity := by
  obtain ⟨hmachine, rfl⟩ := hmachine
  exact
    { memory := ⟨hmachine.memory, fun byte _ => isByte_toNat byte⟩
      registers := ⟨hmachine.registers, fun byte _ => isByte_toNat byte⟩
      pc := hmachine.pc
      index := hmachine.index
      opcode := hmachine.opcode
      capacity_eq := rfl
      slots := hmachine.stored.size_eq
      depth := hmachine.stack.depth_le
      live := ⟨CallStack.length_live hmachine.stored, hmachine.stack.live_words⟩
      timers := ⟨hmachine.timers.delay, hmachine.timers.sound⟩
      cells := ⟨hmachine.display.width, hmachine.display.height, hmachine.display.size,
        hmachine.display.bits⟩
      keys := ⟨hmachine.keypad.size_eq, hmachine.keypad.bits⟩
      awaiting := by
        intro register hregister
        obtain ⟨x, rfl⟩ := hmachine.awaiting register hregister
        omega }

/-- Any run keeps a machine within its bounds, also behind failures, and a cycle or a frame from
there succeeds unless the program misuses the call stack. -/
theorem bounded_after_commands (traced : Bool) (capacity : Int) (random : RandomBytes)
    (commands : List Command) :
    let machine := (powerOn capacity random).after traced commands
    machine.Bounded capacity ∧
      ((cycle traced machine).result = .ok () ∨
        ∃ fault, (cycle traced machine).result = .error fault ∧ fault.MisusesStack capacity) ∧
      ∀ count, (∃ dirty, (frame count traced machine).result = .ok dirty) ∨
        ∃ fault, (frame count traced machine).result = .error fault ∧
          fault.MisusesStack capacity := by
  intro machine
  have hmachine : machine.Sound capacity := sound_after traced commands (sound_powerOn _ _)
  refine ⟨hmachine.bounded, ?_, fun count => ?_⟩
  · have hfault := (keeps_sound_cycle traced machine hmachine).2
    cases hresult : (cycle traced machine).result with
    | ok _ => exact .inl rfl
    | error fault => exact .inr ⟨fault, rfl, hfault fault hresult⟩
  · have hfault := (keeps_sound_frame count traced machine hmachine).2
    cases hresult : (frame count traced machine).result with
    | ok dirty => exact .inl ⟨dirty, rfl⟩
    | error fault => exact .inr ⟨fault, rfl, hfault fault hresult⟩

end Machine

end ChipEight
