import ChipEight.Proofs.Commands

/-!
A whole machine stays whole, whatever is done to it and whether that succeeds or fails. What the
display looks like has no say in it.
-/

namespace ChipEight

variable {α β : Type}

theorem Registers.size_state_put (x value : Int) (traced : Bool) (registers : Registers) :
    (put x value traced registers).state.bytes.size = registers.bytes.size := by
  cases hassign : Store.assignByte registers.bytes x value with
  | error fault => simp [put, hassign]
  | ok bytes => simpa [put, hassign] using Store.size_of_assignByte hassign

theorem Registers.size_state_putFrom (x : Int) (bytes : List UInt8) (traced : Bool)
    (registers : Registers) :
    (putFrom x bytes traced registers).state.bytes.size = registers.bytes.size := by
  induction bytes generalizing x registers with
  | nil => rfl
  | cons byte rest ih =>
      have hfirst := size_state_put x byte.toNat traced registers
      cases hresult : (put x byte.toNat traced registers).result with
      | error fault => rw [putFrom, Step.bind_of_error hresult, hfirst]
      | ok done => rw [putFrom, Step.bind_of_ok hresult, ih, hfirst]

namespace Machine

def KeepsWhole (step : Step Machine α) : Prop :=
  ∀ traced machine, machine.Whole → (step traced machine).state.Whole

theorem KeepsWhole.bind {first : Step Machine α} {second : α → Step Machine β}
    (hfirst : KeepsWhole first) (hsecond : ∀ a, KeepsWhole (second a)) :
    KeepsWhole (first >>= second) := by
  intro traced machine hmachine
  have hbetween := hfirst traced machine hmachine
  cases hresult : (first traced machine).result with
  | error fault =>
      rw [Step.bind_of_error hresult]
      exact hbetween
  | ok a =>
      rw [Step.bind_of_ok hresult]
      exact hsecond a traced _ hbetween

theorem keepsWhole_of_state_eq {step : Step Machine α}
    (h : ∀ traced machine, (step traced machine).state = machine) : KeepsWhole step := by
  intro traced machine hmachine
  rw [h traced machine]
  exact hmachine

theorem keepsWhole_modify {f : Machine → Machine}
    (h : ∀ machine, machine.Whole → (f machine).Whole) : KeepsWhole (Step.modify f) :=
  fun _ machine hmachine => h machine hmachine

/-! ### Steps -/

theorem keepsWhole_readFrom (address : Int) (count : Nat) :
    KeepsWhole (onMemory (Memory.readFrom address count)) := by
  intro traced machine hmachine
  rw [onMemory, Step.on_apply, Memory.readFrom_eq address traced hmachine.memory]
  exact hmachine

theorem keepsWhole_writeFrom (address : Int) (values : List Int) :
    KeepsWhole (onMemory (Memory.writeFrom address values)) := by
  intro traced machine hmachine
  rw [onMemory, Step.on_apply, Memory.writeFrom_eq address traced hmachine.memory]
  exact { hmachine with memory := (Memory.whole_stored_iff address).mpr hmachine.memory }

theorem keepsWhole_value (x : Int) : KeepsWhole (value x) :=
  keepsWhole_of_state_eq fun traced machine => by rw [value_apply]

theorem keepsWhole_put (x value : Int) : KeepsWhole (put x value) := by
  intro traced machine hmachine
  have hsize := Registers.size_state_put x value traced machine.registers
  exact { hmachine with registers := hsize.trans hmachine.registers }

theorem keepsWhole_putFrom (x : Int) (bytes : List UInt8) :
    KeepsWhole (onRegisters (Registers.putFrom x bytes)) := by
  intro traced machine hmachine
  have hsize := Registers.size_state_putFrom x bytes traced machine.registers
  exact { hmachine with registers := hsize.trans hmachine.registers }

theorem keepsWhole_push (address : Int) : KeepsWhole (onStack (CallStack.push address)) := by
  intro traced machine hmachine
  by_cases hfull : machine.stack.capacity ≤ machine.stack.depth
  · rw [onStack, Step.on_apply, CallStack.push_of_full hfull]
    exact hmachine
  · have hroom : machine.stack.depth < machine.stack.capacity := Int.not_le.mp hfull
    rw [onStack, Step.on_apply, CallStack.push_of_room hmachine.stored hroom]
    exact { hmachine with stored := CallStack.stored_pushed hmachine.stored hroom }

theorem keepsWhole_pop : KeepsWhole (onStack CallStack.pop) := by
  intro traced machine hmachine
  by_cases hempty : machine.stack.depth = 0
  · rw [onStack, Step.on_apply, CallStack.pop_of_empty hempty]
    exact hmachine
  · obtain ⟨latest, hslot, -⟩ := CallStack.live_eq_popped_append hmachine.stored hempty
    rw [onStack, Step.on_apply, CallStack.pop_of_slot hempty hslot]
    exact { hmachine with stored := CallStack.stored_popped hmachine.stored }

theorem keepsWhole_onDisplay (step : Step Display α) : KeepsWhole (onDisplay step) :=
  fun _ _ hmachine => { hmachine with }

theorem keepsWhole_onRandom (step : Step RandomBytes α) : KeepsWhole (onRandom step) :=
  fun _ _ hmachine => { hmachine with }

theorem keepsWhole_jumpTo (address : Int) : KeepsWhole (jumpTo address) :=
  keepsWhole_modify fun _ hmachine => { hmachine with }

theorem keepsWhole_pointTo (address : Int) : KeepsWhole (pointTo address) :=
  keepsWhole_modify fun _ hmachine => { hmachine with }

theorem keepsWhole_advance : KeepsWhole advance :=
  keepsWhole_modify fun _ hmachine => { hmachine with }

theorem keepsWhole_skipIf (condition : Bool) : KeepsWhole (skipIf condition) := by
  cases condition with
  | false => exact keepsWhole_of_state_eq fun _ _ => rfl
  | true => exact keepsWhole_advance

theorem keepsWhole_putWithFlag (x value : Int) (flag : Bool) :
    KeepsWhole (putWithFlag x value flag) :=
  (keepsWhole_put x value).bind fun _ => keepsWhole_put _ _

theorem keepsWhole_keyDown (x : Int) : KeepsWhole (keyDown x) := by
  refine .bind (keepsWhole_of_state_eq fun _ _ => rfl) fun machine => ?_
  exact (keepsWhole_value x).bind fun number => keepsWhole_of_state_eq fun _ _ => rfl

theorem keepsWhole_waitForKey (x : Fin 16) : KeepsWhole (waitForKey x) := by
  refine .bind (keepsWhole_of_state_eq fun _ _ => rfl) fun machine => ?_
  refine .bind (keepsWhole_of_state_eq fun _ _ => rfl) fun key => ?_
  cases key with
  | some key => exact keepsWhole_put _ _
  | none =>
      refine .bind (keepsWhole_modify fun before hbefore => ?_) fun _ =>
        keepsWhole_of_state_eq fun _ _ => rfl
      exact { hbefore with
        awaiting := fun register hregister => ⟨x, (Option.some.inj hregister).symm⟩ }

theorem keepsWhole_resume (x : Int) : KeepsWhole (resume x) := by
  refine .bind (keepsWhole_of_state_eq fun _ _ => rfl) fun machine => ?_
  refine .bind (keepsWhole_of_state_eq fun _ _ => rfl) fun key => ?_
  cases key with
  | some key =>
      refine (keepsWhole_put x key).bind fun _ => keepsWhole_modify fun before hbefore => ?_
      exact { hbefore with awaiting := fun _ hregister => nomatch hregister }
  | none => exact keepsWhole_of_state_eq fun _ _ => rfl

theorem keepsWhole_drawSprite (x y height : Nat) : KeepsWhole (drawSprite x y height) := by
  refine .bind (keepsWhole_of_state_eq fun _ _ => rfl) fun machine => ?_
  refine (keepsWhole_readFrom _ height).bind fun sprite => ?_
  refine (keepsWhole_put _ 0).bind fun _ => ?_
  refine (keepsWhole_onDisplay _).bind fun hit => ?_
  split
  · exact keepsWhole_put _ 1
  · exact keepsWhole_of_state_eq fun _ _ => rfl

/-! ### Instructions, cycles and frames -/

theorem keepsWhole_execute (i : Instruction) : KeepsWhole (execute i) := by
  refine .bind (keepsWhole_of_state_eq fun _ _ => rfl) fun machine => ?_
  cases i.operation with
  | clearScreen => exact keepsWhole_onDisplay _
  | returnFromCall => exact keepsWhole_pop.bind fun address => keepsWhole_jumpTo address
  | jump => exact keepsWhole_jumpTo _
  | call => exact (keepsWhole_push _).bind fun _ => keepsWhole_jumpTo _
  | skipIfByte | skipUnlessByte => exact (keepsWhole_value _).bind fun vx => keepsWhole_skipIf _
  | skipIfSame | skipUnlessSame =>
      exact (keepsWhole_value _).bind fun vx =>
        (keepsWhole_value _).bind fun vy => keepsWhole_skipIf _
  | loadByte | readDelay => exact keepsWhole_put _ _
  | addByte | copy => exact (keepsWhole_value _).bind fun v => keepsWhole_put _ _
  | bitOr | bitAnd | bitXor =>
      exact (keepsWhole_value _).bind fun vx =>
        (keepsWhole_value _).bind fun vy => keepsWhole_put _ _
  | add | subtract | subtractFrom =>
      exact (keepsWhole_value _).bind fun vx =>
        (keepsWhole_value _).bind fun vy => keepsWhole_putWithFlag _ _ _
  | shiftRight | shiftLeft =>
      exact (keepsWhole_value _).bind fun vx => keepsWhole_putWithFlag _ _ _
  | loadIndex => exact keepsWhole_pointTo _
  | jumpWithOffset => exact (keepsWhole_value _).bind fun offset => keepsWhole_jumpTo _
  | random => exact (keepsWhole_onRandom _).bind fun byte => keepsWhole_put _ _
  | draw =>
      exact (keepsWhole_value _).bind fun vx =>
        (keepsWhole_value _).bind fun vy => keepsWhole_drawSprite _ _ _
  | skipIfPressed | skipUnlessPressed =>
      exact (keepsWhole_keyDown _).bind fun down => keepsWhole_skipIf _
  | awaitKey => exact keepsWhole_waitForKey _
  | setDelay | setSound =>
      exact (keepsWhole_value _).bind fun vx =>
        keepsWhole_modify fun _ hbefore => { hbefore with }
  | addIndex | selectGlyph => exact (keepsWhole_value _).bind fun vx => keepsWhole_pointTo _
  | storeDecimal => exact (keepsWhole_value _).bind fun vx => keepsWhole_writeFrom _ _
  | storeRegisters =>
      have hvalues : KeepsWhole (onRegisters (Registers.valuesFrom 0 (i.x + 1))) := by
        intro traced before hbefore
        rw [onRegisters, Step.on_apply,
          Registers.valuesFrom_zero_eq hbefore.registers (by omega)]
        exact hbefore
      exact hvalues.bind fun values => keepsWhole_writeFrom _ _
  | loadRegisters => exact (keepsWhole_readFrom _ _).bind fun bytes => keepsWhole_putFrom _ _
  | unknown => exact keepsWhole_of_state_eq fun _ _ => rfl

theorem keepsWhole_cycle : KeepsWhole cycle := by
  intro traced machine hmachine
  cases hnext : machine.next? with
  | some i =>
      rw [(cycle_of_next? hmachine.memory traced hnext).1]
      exact keepsWhole_execute i traced _ (whole_fetched hmachine)
  | none =>
      obtain ⟨register, hawaiting⟩ := awaiting_of_next?_eq_none hnext
      rw [cycle_of_awaiting traced hawaiting]
      exact keepsWhole_resume register traced machine hmachine

theorem keepsWhole_cycles (count : Nat) : KeepsWhole (cycles count) := by
  induction count with
  | zero => exact keepsWhole_of_state_eq fun _ _ => rfl
  | succ count ih => exact keepsWhole_cycle.bind fun _ => ih

theorem keepsWhole_tick : KeepsWhole (Step.modify tick) :=
  keepsWhole_modify fun _ hmachine => { hmachine with }

theorem keepsWhole_frame (count : Int) : KeepsWhole (frame count) :=
  (keepsWhole_cycles count.toNat).bind fun _ =>
    keepsWhole_tick.bind fun _ => keepsWhole_onDisplay Display.takeDirty

/-! ### Commands -/

theorem keepsWhole_load (program : List Int) : KeepsWhole (load program) :=
  fun traced _ hmachine =>
    { hmachine with memory := Memory.whole_load hmachine.memory program traced }

theorem keepsWhole_putKey (key : Int) (down : Bool) :
    KeepsWhole (onKeypad (Keypad.put key down.toNat)) := by
  intro traced machine hmachine
  rw [onKeypad, Step.on_apply, Keypad.put_eq hmachine.keypad key down]
  exact { hmachine with keypad := Keypad.whole_moved hmachine.keypad key down }

theorem keepsWhole_perform (command : Command) : KeepsWhole (perform command) := by
  have hanswer : ∀ answer : Option Bool, KeepsWhole (pure answer) :=
    fun _ => keepsWhole_of_state_eq fun _ _ => rfl
  cases command with
  | load program => exact (keepsWhole_load program).bind fun _ => hanswer none
  | cycle => exact keepsWhole_cycle.bind fun _ => hanswer none
  | frame count => exact (keepsWhole_frame count).bind fun dirty => hanswer (some dirty)
  | tick => exact keepsWhole_tick.bind fun _ => hanswer none
  | press key => exact (keepsWhole_putKey key true).bind fun _ => hanswer none
  | release key => exact (keepsWhole_putKey key false).bind fun _ => hanswer none
  | takeDirty => exact (keepsWhole_onDisplay _).bind fun dirty => hanswer (some dirty)
  | reset =>
      refine (keepsWhole_modify fun machine _ => ?_).bind fun _ => hanswer none
      exact (wellFormed_reset machine).toWhole

theorem Whole.after {machine : Machine} (hmachine : machine.Whole) (traced : Bool)
    (commands : List Command) : (machine.after traced commands).Whole := by
  induction commands generalizing machine with
  | nil => exact hmachine
  | cons command rest ih => exact ih (keepsWhole_perform command traced machine hmachine)

end Machine

end ChipEight
