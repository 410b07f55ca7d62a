import ChipEight.Proofs.SpriteImage
import ChipEight.Proofs.StepRules
import ChipEight.Proofs.WellFormed

/-!
What executing one instruction can do to a well-formed machine, said once. Invariants of runs are
then proved over the few kinds of transitions, not over all the operations.
-/

namespace ChipEight

structure Instruction.InRange (i : Instruction) : Prop where
  nn_le : i.nn ≤ 0xFF
  nnn_le : i.nnn ≤ 0xFFF

theorem Instruction.inRange_decode (opcode : Int) : (decode opcode).InRange where
  nn_le := Bits.mask_le opcode byteMask
  nnn_le := Bits.mask_le opcode addressMask

namespace Machine

/-- The kinds of transitions from a machine whose program counter has been moved past an
instruction. Only the last two fail, and they leave the machine as it was. -/
inductive Transition (i : Instruction) (machine : Machine) : Machine → Except Fault Unit → Prop
  | compute (registers : Registers) (pc index : Int) (timers : Timers) (random : RandomBytes)
      (hop : i.operation ∉ [.clearScreen, .draw, .call, .returnFromCall])
      (hregisters : registers.Whole) (hpc : IsWord pc) (hindex : IsWord index)
      (htimers : timers.WellFormed) :
      Transition i machine
        { machine with
          registers := registers, pc := pc, index := index, timers := timers, random := random }
        (.ok ())
  | store (memory : Memory) (hop : i.operation ∉ [.clearScreen, .draw, .call, .returnFromCall])
      (hmemory : memory.Whole) :
      Transition i machine { machine with memory := memory } (.ok ())
  | suspend (hop : i.operation = .awaitKey) :
      Transition i machine { machine with awaiting := some i.x.val } (.ok ())
  | clear (hop : i.operation = .clearScreen) :
      Transition i machine { machine with display := machine.display.clear } (.ok ())
  | draw (registers : Registers) (cells : Array UInt8) (hop : i.operation = .draw)
      (hregisters : registers.Whole) (hsize : cells.size = machine.display.cells.size)
      (hbits : ∀ cell ∈ cells, IsBit cell) :
      Transition i machine
        { machine with
          registers := registers
          display := { machine.display with cells := cells, dirty := true } }
        (.ok ())
  | call (hop : i.operation = .call) (hroom : machine.stack.depth < machine.stack.capacity) :
      Transition i machine
        { machine with stack := machine.stack.pushed machine.pc, pc := i.nnn } (.ok ())
  | return (latest : Int) (hop : i.operation = .returnFromCall)
      (hlive : machine.stack.live = machine.stack.popped.live ++ [latest]) :
      Transition i machine { machine with stack := machine.stack.popped, pc := latest } (.ok ())
  | overflow (hop : i.operation = .call) (hfull : machine.stack.capacity ≤ machine.stack.depth) :
      Transition i machine machine (.error (.stackOverflow machine.stack.capacity))
  | underflow (hop : i.operation = .returnFromCall) (hempty : machine.stack.depth = 0) :
      Transition i machine machine (.error .stackUnderflow)

variable {i : Instruction} {machine : Machine} {traced : Bool}

/-! ### The steps that operations are made of -/

theorem value_apply (x : Int) (traced : Bool) (machine : Machine) :
    value x traced machine
      = ⟨machine, [], (Store.item machine.registers.bytes x).map UInt8.toNat⟩ := by
  cases hitem : Store.item machine.registers.bytes x <;>
    simp [value, onRegisters, Registers.value, hitem, Except.map]

theorem value_bind {β : Type} (hregisters : machine.registers.Whole) (x : Fin 16)
    (next : Nat → Step Machine β) :
    (value x.val >>= next) traced machine = next (machine.registers.get x) traced machine := by
  simp [value, onRegisters, Registers.value_eq hregisters]

theorem put_eq (hregisters : machine.registers.Whole) (x : Fin 16) {value : Int}
    (hvalue : IsByte value) :
    put x.val value traced machine =
      ⟨{ machine with registers := machine.registers.written x value }, [], .ok ()⟩ := by
  simp [put, onRegisters, Registers.put_eq hregisters x hvalue]

theorem putWithFlag_eq (hregisters : machine.registers.Whole) (x : Fin 16) {value : Int}
    (flag : Bool) (hvalue : IsByte value) :
    putWithFlag x.val value flag traced machine =
      ⟨{ machine with
          registers := (machine.registers.written x value).written flagRegister
            (if flag then 1 else 0) }, [], .ok ()⟩ := by
  have hflag : IsByte (if flag then 1 else 0) := by cases flag <;> decide
  let marked := { machine with registers := machine.registers.written x value }
  have hmarked : marked.registers.Whole := Registers.whole_written_iff.mpr hregisters
  rw [putWithFlag, Step.bind_of_ok (by rw [put_eq hregisters x hvalue]),
    put_eq hregisters x hvalue, put_eq hmarked flagRegister hflag]
  rfl

theorem keyDown_bind {β : Type} (hregisters : machine.registers.Whole)
    (hkeypad : machine.keypad.Whole) (x : Fin 16) (next : Bool → Step Machine β) :
    (keyDown x.val >>= next) traced machine
      = next (decide (machine.keypad.Holds (machine.registers.get x))) traced machine := by
  have hdown := Keypad.get_eq_holds hkeypad (machine.registers.get x)
  have hlook : keyDown x.val traced machine
      = ⟨machine, [], .ok (decide (machine.keypad.Holds (machine.registers.get x)))⟩ := by
    rw [keyDown, Step.get_bind, value_bind hregisters, hdown, Step.ofExcept_apply]
  rw [Step.bind_of_ok (by rw [hlook]), hlook]
  rfl

theorem skipIf_eq (condition traced : Bool) (hpc : IsWord machine.pc) :
    ∃ pc, IsWord pc ∧
      skipIf condition traced machine = ⟨{ machine with pc := pc }, [], .ok ()⟩ := by
  cases condition with
  | false => exact ⟨machine.pc, hpc, rfl⟩
  | true => exact ⟨_, Bits.isWord_mask (machine.pc + 2), rfl⟩

/-- Drawing puts the flag into VF whatever was there before, and turns over what the sprite at I
covers. -/
theorem drawSprite_eq (x y height : Nat) (traced : Bool) (hmachine : machine.Whole)
    (hproper : machine.display.Proper) :
    ∃ cells hit,
      machine.display.Turned
        (fun cx cy => spriteCovers
          ((machine.memory.block machine.index height).map fun byte => (byte.toNat : Int))
          (cx - x % machine.display.width) (cy - y % machine.display.height))
        cells hit ∧
      drawSprite x y height traced machine =
        ⟨{ machine with
            registers := machine.registers.written flagRegister (if hit then 1 else 0)
            display := { machine.display with cells := cells, dirty := true } },
          if traced then Memory.strays (Memory.addressesFrom machine.index height) else [],
          .ok ()⟩ := by
  have hread := Memory.readFrom_eq machine.index traced hmachine.memory height
  generalize machine.memory.block machine.index height = bytes at hread
  obtain ⟨cells, hit, hturned, hdraw⟩ :=
    Display.draw_turned x y (bytes.map fun byte => (byte.toNat : Int)) traced hproper
  refine ⟨cells, hit, hturned, ?_⟩
  have hlow : put flagRegister.val 0 traced machine = _ :=
    put_eq hmachine.registers flagRegister (by decide : IsByte 0)
  cases hit with
  | false => simp [drawSprite, onMemory, onDisplay, hread, hlow, hdraw]
  | true =>
      -- VF is written a second time, in the machine that has been drawn on.
      let drawn : Machine :=
        { machine with
          registers := machine.registers.written flagRegister 0
          display := { machine.display with cells := cells, dirty := true } }
      have hdrawn : drawn.registers.Whole := Registers.whole_written_iff.mpr hmachine.registers
      have hhigh : put flagRegister.val 1 traced drawn = _ :=
        put_eq hdrawn flagRegister (by decide : IsByte 1)
      simp only [drawn] at hhigh
      simp [drawSprite, onMemory, onDisplay, hread, hlow, hdraw, hhigh]

theorem display_drawSprite (x y height : Nat) (traced : Bool) (hmachine : machine.Whole) :
    (drawSprite x y height traced machine).state.display =
      (Display.draw x y
        ((machine.memory.block machine.index height).map fun byte => (byte.toNat : Int))
        traced machine.display).state := by
  have hread := Memory.readFrom_eq machine.index traced hmachine.memory height
  let sprite := (machine.memory.block machine.index height).map fun byte => (byte.toNat : Int)
  let marked := { machine with registers := machine.registers.written flagRegister 0 }
  have hmarked : marked.registers.Whole := Registers.whole_written_iff.mpr hmachine.registers
  have hlow : put flagRegister.val 0 traced machine = _ :=
    put_eq hmachine.registers flagRegister (by decide : IsByte 0)
  have hdraw : (drawSprite x y height traced machine).state =
      ((onDisplay (Display.draw x y sprite) >>= fun hit =>
        if hit then put flagRegister.val 1 else pure ()) traced marked).state := by
    simp [drawSprite, onMemory, hread, hlow, sprite, marked]
  -- Drawing on the display leaves the registers alone.
  have hdrawn : (onDisplay (Display.draw x y sprite) traced marked).state.registers.Whole := hmarked
  rw [hdraw]
  cases hresult : (onDisplay (Display.draw x y sprite) traced marked).result with
  | error fault =>
      rw [Step.bind_of_error hresult]
      rfl
  | ok hit =>
      rw [Step.bind_of_ok hresult]
      cases hit with
      | false => rfl
      | true =>
          rw [if_pos rfl, put_eq hdrawn flagRegister (by decide : IsByte 1)]
          rfl

/-! ### Transitions of the operations that come in families -/

theorem transition_put (x : Fin 16) {value : Int}
    (hop : i.operation ∉ [.clearScreen, .draw, .call, .returnFromCall])
    (hmachine : machine.WellFormed) (hvalue : IsByte value) :
    Transition i machine (put x.val value traced machine).state
      (put x.val value traced machine).result := by
  rw [put_eq hmachine.registers x hvalue]
  exact .compute _ _ _ _ _ hop (Registers.whole_written_iff.mpr hmachine.registers) hmachine.pc
    hmachine.index hmachine.timers

theorem transition_putWithFlag (x : Fin 16) {value : Int} (flag : Bool)
    (hop : i.operation ∉ [.clearScreen, .draw, .call, .returnFromCall])
    (hmachine : machine.WellFormed) (hvalue : IsByte value) :
    Transition i machine (putWithFlag x.val value flag traced machine).state
      (putWithFlag x.val value flag traced machine).result := by
  rw [putWithFlag_eq hmachine.registers x flag hvalue]
  refine .compute _ _ _ _ _ hop ?_ hmachine.pc hmachine.index hmachine.timers
  exact Registers.whole_written_iff.mpr (Registers.whole_written_iff.mpr hmachine.registers)

theorem transition_skipIf (condition : Bool)
    (hop : i.operation ∉ [.clearScreen, .draw, .call, .returnFromCall])
    (hmachine : machine.WellFormed) :
    Transition i machine (skipIf condition traced machine).state
      (skipIf condition traced machine).result := by
  obtain ⟨pc, hpc, hskip⟩ := skipIf_eq condition traced hmachine.pc
  rw [hskip]
  exact .compute _ _ _ _ _ hop hmachine.registers hpc hmachine.index hmachine.timers

theorem transition_writeFrom (address : Int) (values : List Int)
    (hop : i.operation ∉ [.clearScreen, .draw, .call, .returnFromCall])
    (hmachine : machine.WellFormed) :
    Transition i machine (onMemory (Memory.writeFrom address values) traced machine).state
      (onMemory (Memory.writeFrom address values) traced machine).result := by
  have hwrite := Memory.writeFrom_eq address traced hmachine.memory values
  rw [onMemory, Step.on_apply, hwrite]
  exact .store _ hop ((Memory.whole_stored_iff address).mpr hmachine.memory)

theorem transition_call (hop : i.operation = .call) (hmachine : machine.WellFormed) :
    let step := onStack (CallStack.push machine.pc) >>= fun _ => jumpTo i.nnn
    Transition i machine (step traced machine).state (step traced machine).result := by
  by_cases hfull : machine.stack.capacity ≤ machine.stack.depth
  · simp only [onStack, Step.bind_apply, Step.on_apply, CallStack.push_of_full hfull]
    exact .overflow hop hfull
  · have hroom : machine.stack.depth < machine.stack.capacity := Int.not_le.mp hfull
    simp only [onStack, Step.bind_apply, Step.on_apply,
      CallStack.push_of_room hmachine.stored hroom, jumpTo, Step.modify_apply]
    exact .call hop hroom

theorem transition_return (hop : i.operation = .returnFromCall) (hmachine : machine.WellFormed) :
    let step := onStack CallStack.pop >>= jumpTo
    Transition i machine (step traced machine).state (step traced machine).result := by
  by_cases hempty : machine.stack.depth = 0
  · simp only [onStack, Step.bind_apply, Step.on_apply, CallStack.pop_of_empty hempty]
    exact .underflow hop hempty
  · obtain ⟨latest, hslot, hlive⟩ := CallStack.live_eq_popped_append hmachine.stored hempty
    simp only [onStack, Step.bind_apply, Step.on_apply, CallStack.pop_of_slot hempty hslot, jumpTo,
      Step.modify_apply]
    exact .return latest hop hlive

theorem waitForKey_of_some {key : Fin 16} (x : Fin 16) (traced : Bool) (hmachine : machine.Whole)
    (hkey : machine.keypad.lowest = some key) :
    waitForKey x traced machine =
      ⟨{ machine with registers := machine.registers.written x key.val }, [], .ok ()⟩ := by
  have hbyte : IsByte key.val := isByte_natCast (by omega)
  rw [waitForKey, Step.get_bind]
  simp [Keypad.first_eq hmachine.keypad, hkey, put_eq hmachine.registers x hbyte]

theorem waitForKey_of_none (x : Fin 16) (traced : Bool) (hmachine : machine.Whole)
    (hkey : machine.keypad.lowest = none) :
    waitForKey x traced machine =
      ⟨{ machine with awaiting := some x.val }, if traced then [.awaitingKey x] else [],
        .ok ()⟩ := by
  rw [waitForKey, Step.get_bind]
  simp [Keypad.first_eq hmachine.keypad, hkey]

theorem transition_waitForKey (hop : i.operation = .awaitKey) (hmachine : machine.WellFormed) :
    Transition i machine (waitForKey i.x traced machine).state
      (waitForKey i.x traced machine).result := by
  cases hkey : machine.keypad.lowest with
  | none =>
      rw [waitForKey_of_none i.x traced hmachine.toWhole hkey]
      exact .suspend hop
  | some key =>
      rw [waitForKey_of_some i.x traced hmachine.toWhole hkey]
      exact .compute _ _ _ _ _ (by simp [hop]) (Registers.whole_written_iff.mpr hmachine.registers)
        hmachine.pc hmachine.index hmachine.timers

theorem storeRegisters_eq (hregisters : machine.registers.Whole) (x : Fin 16) :
    (onRegisters (Registers.valuesFrom 0 (x + 1)) >>= fun values =>
        onMemory (Memory.writeFrom machine.index (values.map Nat.cast))) traced machine
      = onMemory (Memory.writeFrom machine.index
          ((machine.registers.first (x + 1)).map Nat.cast)) traced machine := by
  have hcount : x.val + 1 ≤ 16 := x.isLt
  simp [onRegisters, Registers.valuesFrom_zero_eq hregisters hcount]

theorem loadRegisters_eq (hmachine : machine.Whole) (x : Fin 16) :
    (onMemory (Memory.readFrom machine.index (x + 1)) >>= fun bytes =>
        onRegisters (Registers.putFrom 0 bytes)) traced machine
      = ⟨{ machine with
            registers := machine.registers.filled 0 (machine.memory.block machine.index (x + 1)) },
          if traced then Memory.strays (Memory.addressesFrom machine.index (x + 1)) else [],
          .ok ()⟩ := by
  have hread := Memory.readFrom_eq machine.index traced hmachine.memory (x + 1)
  have hlength : 0 + (machine.memory.block machine.index (x + 1)).length ≤ 16 := by
    rw [Memory.length_block]
    omega
  have hfill : Registers.putFrom (0 : Nat) _ traced machine.registers = _ :=
    Registers.putFrom_eq hmachine.registers hlength
  rw [Nat.cast_zero] at hfill
  simp [onMemory, onRegisters, hread, hfill]

/-! ### Every operation -/

/-- Executing an instruction is one of the transitions. -/
theorem execute_transition (traced : Bool) (hmachine : machine.WellFormed) (hi : i.InRange) :
    Transition i machine (execute i traced machine).state (execute i traced machine).result := by
  have hnn := hi.nn_le
  have hnnn := hi.nnn_le
  have hregisters := hmachine.registers
  have hx := machine.registers.get_le i.x
  have hy := machine.registers.get_le i.y
  rw [execute, Step.get_bind]
  cases hop : i.operation with
  | clearScreen => exact .clear hop
  | returnFromCall => exact transition_return hop hmachine
  | jump =>
      exact .compute _ _ _ _ _ (by simp [hop]) hregisters (by omega) hmachine.index hmachine.timers
  | call => exact transition_call hop hmachine
  | skipIfByte | skipUnlessByte =>
      simp only [value_bind hregisters]
      exact transition_skipIf _ (by simp [hop]) hmachine
  | skipIfSame | skipUnlessSame =>
      simp only [value_bind hregisters]
      exact transition_skipIf _ (by simp [hop]) hmachine
  | loadByte => exact transition_put _ (by simp [hop]) hmachine (isByte_natCast hnn)
  | addByte =>
      simp only [value_bind hregisters]
      exact transition_put _ (by simp [hop]) hmachine (Bits.isByte_mask _)
  | copy =>
      simp only [value_bind hregisters]
      exact transition_put _ (by simp [hop]) hmachine (isByte_natCast hy)
  | bitOr =>
      simp only [value_bind hregisters]
      refine transition_put _ (by simp [hop]) hmachine (isByte_natCast ?_)
      exact Nat.le_of_lt_succ (Nat.or_lt_two_pow (n := 8) (by omega) (by omega))
  | bitAnd =>
      simp only [value_bind hregisters]
      exact transition_put _ (by simp [hop]) hmachine (isByte_natCast (Nat.and_le_left.trans hx))
  | bitXor =>
      simp only [value_bind hregisters]
      refine transition_put _ (by simp [hop]) hmachine (isByte_natCast ?_)
      exact Nat.le_of_lt_succ (Nat.xor_lt_two_pow (n := 8) (by omega) (by omega))
  | add | subtract | subtractFrom =>
      simp only [value_bind hregisters]
      exact transition_putWithFlag _ _ (by simp [hop]) hmachine (Bits.isByte_mask _)
  | shiftRight =>
      simp only [value_bind hregisters]
      refine transition_putWithFlag _ _ (by simp [hop]) hmachine (isByte_natCast ?_)
      exact (Nat.shiftRight_le _ 1).trans hx
  | shiftLeft =>
      simp only [value_bind hregisters]
      exact transition_putWithFlag _ _ (by simp [hop]) hmachine (Bits.isByte_mask _)
  | loadIndex =>
      exact .compute _ _ _ _ _ (by simp [hop]) hregisters hmachine.pc (by omega) hmachine.timers
  | jumpWithOffset =>
      simp only [value_bind hregisters]
      exact .compute _ _ _ _ _ (by simp [hop]) hregisters (Bits.isWord_mask _) hmachine.index
        hmachine.timers
  | random =>
      have hbyte := (machine.random.byteAt machine.random.drawn).toNat_lt
      have hmasked : (machine.random.byteAt machine.random.drawn).toNat &&& i.nn ≤ 0xFF :=
        Nat.and_le_left.trans (by omega)
      let drawn := { machine with
        random := { machine.random with drawn := machine.random.drawn + 1 } }
      have hdrawn : drawn.registers.Whole := hregisters
      have hput : put i.x.val _ traced drawn = _ := put_eq hdrawn i.x (isByte_natCast hmasked)
      simp only [drawn] at hput
      simp only [onRandom, RandomBytes.draw, Step.bind_apply, Step.on_apply, Step.get_apply,
        Step.modify_apply, Step.pure_apply, hput]
      exact .compute _ _ _ _ _ (by simp [hop]) (Registers.whole_written_iff.mpr hregisters)
        hmachine.pc hmachine.index hmachine.timers
  | draw =>
      simp only [value_bind hregisters]
      obtain ⟨cells, hit, hturned, hdraw⟩ :=
        drawSprite_eq (machine.registers.get i.x) (machine.registers.get i.y) i.n traced
          hmachine.toWhole hmachine.display.proper
      simp only [hdraw]
      exact .draw _ cells hop (Registers.whole_written_iff.mpr hregisters) hturned.size_eq
        hturned.bits
  | skipIfPressed | skipUnlessPressed =>
      simp only [keyDown_bind hregisters hmachine.keypad]
      exact transition_skipIf _ (by simp [hop]) hmachine
  | readDelay => exact transition_put _ (by simp [hop]) hmachine hmachine.timers.delay
  | awaitKey => exact transition_waitForKey hop hmachine
  | setDelay =>
      simp only [value_bind hregisters]
      exact .compute _ _ _ _ _ (by simp [hop]) hregisters hmachine.pc hmachine.index
        ⟨isByte_natCast hx, hmachine.timers.sound⟩
  | setSound =>
      simp only [value_bind hregisters]
      exact .compute _ _ _ _ _ (by simp [hop]) hregisters hmachine.pc hmachine.index
        ⟨hmachine.timers.delay, isByte_natCast hx⟩
  | addIndex =>
      simp only [value_bind hregisters]
      exact .compute _ _ _ _ _ (by simp [hop]) hregisters hmachine.pc (Bits.isWord_mask _)
        hmachine.timers
  | selectGlyph =>
      simp only [value_bind hregisters]
      refine .compute _ _ _ _ _ (by simp [hop]) hregisters hmachine.pc ?_ hmachine.timers
      simp only [fontStart, fontSpriteHeight]
      omega
  | storeDecimal =>
      simp only [value_bind hregisters]
      exact transition_writeFrom _ _ (by simp [hop]) hmachine
  | storeRegisters =>
      simp only [storeRegisters_eq hregisters]
      exact transition_writeFrom _ _ (by simp [hop]) hmachine
  | loadRegisters =>
      simp only [loadRegisters_eq hmachine.toWhole]
      refine .compute _ _ _ _ _ (by simp [hop]) ?_ hmachine.pc hmachine.index hmachine.timers
      exact Registers.whole_filled_iff.mpr hregisters
  | unknown =>
      exact .compute _ _ _ _ _ (by simp [hop]) hregisters hmachine.pc hmachine.index
        hmachine.timers

end Machine

end ChipEight
