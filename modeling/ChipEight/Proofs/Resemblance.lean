import ChipEight.Proofs.Commands
import Mathlib.Data.List.Forall2

/-!
Two machines side by side. A resemblance tells which differences are overlooked in each part of the
machine; the parts' own steps have to overlook them too, and then so do all operations, cycles,
frames and runs, as long as the machines read the same bytes.
-/

namespace ChipEight

variable {α β : Type}

attribute [ext] Timers Display Machine

structure Display.Resembles (flag : Bool → Bool → Prop) (display display' : Display) : Prop where
  width : display.width = display'.width
  height : display.height = display'.height
  cells : display.cells = display'.cells
  dirty : flag display.dirty display'.dirty

/-- The differences that are overlooked in the parts of two machines, with what the steps on these
parts make of them. -/
structure Resemblance where
  memory : Memory → Memory → Prop
  stack : CallStack → CallStack → Prop
  address : Int → Int → Prop
  sound : Int → Int → Prop
  flag : Bool → Bool → Prop
  opcode : Int → Int → Prop
  memory_initial : memory .initial .initial
  memory_write : ∀ {a a'} (value : Int), address a a' →
    Step.Agree memory Eq (Memory.write a value) (Memory.write a' value)
  memory_load : ∀ program,
    Step.Agree memory Eq (Memory.load program) (Memory.load program)
  stack_empty : ∀ {s s'}, stack s s' → stack (.empty s.capacity) (.empty s'.capacity)
  stack_push : ∀ {a a'}, address a a' →
    Step.Agree stack Eq (CallStack.push a) (CallStack.push a')
  stack_pop : Step.Agree stack address CallStack.pop CallStack.pop
  address_refl : ∀ a, address a a
  address_add : ∀ {a a'} (offset : Int), address a a' → address (a + offset) (a' + offset)
  address_mask : ∀ {a a'}, address a a' →
    address (Bits.mask a wordMask) (Bits.mask a' wordMask)
  sound_refl : ∀ ticks, sound ticks ticks
  sound_countDown : ∀ {ticks ticks'}, sound ticks ticks' →
    sound (Timers.countDown ticks) (Timers.countDown ticks')
  flag_refl : ∀ dirty, flag dirty dirty
  opcode_refl : ∀ opcode', opcode opcode' opcode'

/-- Memories that may be exchanged for one another read the same at addresses that may. -/
def Resemblance.Transparent (like : Resemblance) : Prop :=
  ∀ a a', like.address a a' → Step.Agree like.memory Eq (Memory.read a) (Memory.read a')

structure Machine.Resembles (like : Resemblance) (machine machine' : Machine) : Prop where
  memory : like.memory machine.memory machine'.memory
  stack : like.stack machine.stack machine'.stack
  registers : machine.registers = machine'.registers
  pc : like.address machine.pc machine'.pc
  index : like.address machine.index machine'.index
  delay : machine.timers.delay = machine'.timers.delay
  sound : like.sound machine.timers.sound machine'.timers.sound
  display : machine.display.Resembles like.flag machine'.display
  keypad : machine.keypad = machine'.keypad
  awaiting : machine.awaiting = machine'.awaiting
  opcode : like.opcode machine.opcode machine'.opcode
  random : machine.random = machine'.random

def Instruction.reach (i : Instruction) : Nat :=
  match i.operation with
  | .draw => i.n
  | .loadRegisters => i.x + 1
  | _ => 0

/-! ### The parts -/

namespace Display

variable {flag : Bool → Bool → Prop}

theorem agree_flip (x y : Int) : Step.Agree (Resembles flag) Eq (flip x y) (flip x y) := by
  refine .bind .get ?_
  intro display display' h
  have hplace : display.position x y = display'.position x y := by
    rw [position, position, h.width]
  rw [hplace, h.cells]
  refine .bindSame (.ofExcept _) fun cell => .bindSame (.ofExcept _) fun cells => ?_
  refine .bindSame (.modify fun _ _ hreached => ?_) fun _ => .pure rfl
  exact { hreached with cells := rfl }

theorem agree_drawColumns (x y bits : Int) (columns : List Nat) :
    Step.Agree (Resembles flag) Eq (drawColumns x y bits columns)
      (drawColumns x y bits columns) := by
  induction columns with
  | nil => exact .pure rfl
  | cons column rest ih =>
      have hrest : ∀ hit : Bool, Step.Agree (Resembles flag) Eq
          (drawColumns x y bits rest >>= fun more => pure (hit || more))
          (drawColumns x y bits rest >>= fun more => pure (hit || more)) := by
        intro hit
        refine .bindSame ih fun more => ?_
        exact .pure rfl
      refine .bind .get ?_
      intro display display' h
      rw [h.width]
      dsimp only
      split
      · exact .pure rfl
      · split
        · refine .bindSame (agree_flip (x + column) y) fun hit => ?_
          exact hrest hit
        · exact .bindSame (.pure rfl) fun _ => hrest _

theorem agree_drawRows (x y : Int) (sprite : List Int) :
    Step.Agree (Resembles flag) Eq (drawRows x y sprite) (drawRows x y sprite) := by
  induction sprite generalizing y with
  | nil => exact .pure rfl
  | cons bits rest ih =>
      refine .bind .get ?_
      intro display display' h
      rw [h.height]
      split
      · exact .pure rfl
      · refine .bindSame (agree_drawColumns x y bits _) fun hit => ?_
        refine .bindSame (ih (y + 1)) fun more => ?_
        exact .pure rfl

theorem agree_draw (hflag : ∀ dirty, flag dirty dirty) (x y : Int) (sprite : List Int) :
    Step.Agree (Resembles flag) Eq (draw x y sprite) (draw x y sprite) := by
  refine .bind .get ?_
  intro display display' h
  rw [h.width, h.height]
  split
  · exact .fail
  · refine .bindSame (agree_drawRows _ _ sprite) fun hit => ?_
    refine .bindSame (.modify fun _ _ hreached => ?_) fun _ => .pure rfl
    exact { hreached with dirty := hflag true }

theorem agree_takeDirty (hflag : ∀ dirty, flag dirty dirty) :
    Step.Agree (Resembles flag) flag takeDirty takeDirty := by
  refine .bind .get ?_
  intro display display' h
  refine .bindSame (.modify fun _ _ hreached => ?_) fun _ => .pure h.dirty
  exact { hreached with dirty := hflag false }

theorem Resembles.clear {display display' : Display} (hflag : ∀ dirty, flag dirty dirty)
    (h : display.Resembles flag display') : display.clear.Resembles flag display'.clear := by
  have hclear : display.clear = display'.clear := by
    rw [Display.clear, Display.clear, h.width, h.height, h.cells]
  rw [hclear]
  exact ⟨rfl, rfl, rfl, hflag _⟩

end Display

namespace Registers

theorem agree_value (x : Int) : Step.Agree Eq Eq (value x) (value x) := by
  refine .bindSame .get fun registers => ?_
  exact .bindSame (.ofExcept _) fun byte => .pure rfl

theorem agree_put (x value : Int) : Step.Agree Eq Eq (put x value) (put x value) := by
  refine .bindSame .get fun registers => ?_
  exact .bindSame (.ofExcept _) fun bytes => .modifySame _

theorem agree_valuesFrom (x : Int) (count : Nat) :
    Step.Agree Eq Eq (valuesFrom x count) (valuesFrom x count) := by
  induction count generalizing x with
  | zero => exact .pure rfl
  | succ count ih =>
      refine .bindSame (agree_value x) fun first => ?_
      exact .bindSame (ih (x + 1)) fun rest => .pure rfl

theorem agree_putFrom (x : Int) (bytes : List UInt8) :
    Step.Agree Eq Eq (putFrom x bytes) (putFrom x bytes) := by
  induction bytes generalizing x with
  | nil => exact .pure rfl
  | cons byte rest ih => exact .bindSame (agree_put x byte.toNat) fun _ => ih (x + 1)

end Registers

theorem Keypad.agree_put (number value : Int) :
    Step.Agree Eq Eq (put number value) (put number value) := by
  refine .bindSame .get fun keypad => ?_
  exact .bindSame (.ofExcept _) fun keys => .modifySame _

theorem RandomBytes.agree_draw : Step.Agree Eq Eq draw draw := by
  refine .bindSame .get fun source => ?_
  exact .bindSame (.modifySame _) fun _ => .pure rfl

namespace CallStack

/-- Two stacks alike in size whose live addresses are related one by one. -/
structure Paired (address : Int → Int → Prop) (stack stack' : CallStack) : Prop where
  capacity : stack.capacity = stack'.capacity
  depth : stack.depth = stack'.depth
  live : List.Forall₂ address stack.live stack'.live
  stored : stack.Stored
  stored' : stack'.Stored

variable {address : Int → Int → Prop}

theorem Paired.empty {stack stack' : CallStack} (h : stack.Paired address stack') :
    (empty stack.capacity).Paired address (CallStack.empty stack'.capacity) :=
  ⟨h.capacity, rfl, .nil, stored_empty _, stored_empty _⟩

theorem agree_push {a a' : Int} (h : address a a') :
    Step.Agree (Paired address) Eq (push a) (push a') := by
  intro traced traced' stack stack' hpaired
  have hcapacity := hpaired.capacity
  have hdepth := hpaired.depth
  by_cases hfull : stack.capacity ≤ stack.depth
  · rw [push_of_full hfull, push_of_full (by omega)]
    refine ⟨hpaired, ?_⟩
    simp only [ResultsAgree, hcapacity]
  · have hroom : stack.depth < stack.capacity := Int.not_le.mp hfull
    have hroom' : stack'.depth < stack'.capacity := by omega
    rw [push_of_room hpaired.stored hroom, push_of_room hpaired.stored' hroom']
    refine ⟨⟨hcapacity, ?_, ?_, stored_pushed hpaired.stored hroom,
      stored_pushed hpaired.stored' hroom'⟩, rfl⟩
    · simp only [pushed, hdepth]
    · rw [live_pushed hpaired.stored hroom, live_pushed hpaired.stored' hroom']
      exact List.rel_append hpaired.live (.cons h .nil)

theorem agree_pop : Step.Agree (Paired address) address pop pop := by
  intro traced traced' stack stack' hpaired
  have hdepth := hpaired.depth
  by_cases hempty : stack.depth = 0
  · rw [pop_of_empty hempty, pop_of_empty (by omega)]
    exact ⟨hpaired, rfl⟩
  · obtain ⟨latest, hslot, hlive⟩ := live_eq_popped_append hpaired.stored hempty
    obtain ⟨latest', hslot', hlive'⟩ := live_eq_popped_append hpaired.stored' (by omega)
    rw [pop_of_slot hempty hslot, pop_of_slot (by omega) hslot']
    -- Read from their ends, the live addresses begin with the ones that are popped.
    have hpairs := hpaired.live
    rw [hlive, hlive', ← List.forall₂_reverse_iff] at hpairs
    simp only [List.reverse_append, List.reverse_singleton, List.singleton_append,
      List.forall₂_cons, List.forall₂_reverse_iff] at hpairs
    refine ⟨⟨hpaired.capacity, ?_, hpairs.2, stored_popped hpaired.stored,
      stored_popped hpaired.stored'⟩, hpairs.1⟩
    simp only [popped, hdepth]

end CallStack

namespace Resemblance

variable (like : Resemblance)

theorem agree_writeFrom {address address' : Int} (h : like.address address address')
    (values : List Int) :
    Step.Agree like.memory Eq (Memory.writeFrom address values)
      (Memory.writeFrom address' values) := by
  induction values generalizing address address' with
  | nil => exact .pure rfl
  | cons value rest ih =>
      exact .bindSame (like.memory_write value h) fun _ => ih (like.address_add 1 h)

variable {like}

theorem Transparent.agree_readFrom (hlike : like.Transparent) {address address' : Int}
    (h : like.address address address') (count : Nat) :
    Step.Agree like.memory Eq (Memory.readFrom address count) (Memory.readFrom address' count) := by
  induction count generalizing address address' with
  | zero => exact .pure rfl
  | succ count ih =>
      refine .bindSame (hlike _ _ h) fun byte => ?_
      exact .bindSame (ih (like.address_add 1 h)) fun bytes => .pure rfl

end Resemblance

namespace Machine

variable {like : Resemblance} {machine machine' : Machine}

/-! ### Steps on the parts -/

theorem agree_onMemory {S : α → β → Prop} {step : Step Memory α} {step' : Step Memory β}
    (h : Step.Agree like.memory S step step') :
    Step.Agree (Resembles like) S (onMemory step) (onMemory step') :=
  h.on (fun _ _ hstates => hstates.memory) fun _ _ _ _ hstates hpieces =>
    { hstates with memory := hpieces }

theorem agree_onStack {S : α → β → Prop} {step : Step CallStack α} {step' : Step CallStack β}
    (h : Step.Agree like.stack S step step') :
    Step.Agree (Resembles like) S (onStack step) (onStack step') :=
  h.on (fun _ _ hstates => hstates.stack) fun _ _ _ _ hstates hpieces =>
    { hstates with stack := hpieces }

theorem agree_onRegisters {step step' : Step Registers α} (h : Step.Agree Eq Eq step step') :
    Step.Agree (Resembles like) Eq (onRegisters step) (onRegisters step') :=
  h.on (fun _ _ hstates => hstates.registers) fun _ _ _ _ hstates hpieces =>
    { hstates with registers := hpieces }

theorem agree_onKeypad {step step' : Step Keypad α} (h : Step.Agree Eq Eq step step') :
    Step.Agree (Resembles like) Eq (onKeypad step) (onKeypad step') :=
  h.on (fun _ _ hstates => hstates.keypad) fun _ _ _ _ hstates hpieces =>
    { hstates with keypad := hpieces }

theorem agree_onDisplay {S : α → β → Prop} {step : Step Display α} {step' : Step Display β}
    (h : Step.Agree (Display.Resembles like.flag) S step step') :
    Step.Agree (Resembles like) S (onDisplay step) (onDisplay step') :=
  h.on (fun _ _ hstates => hstates.display) fun _ _ _ _ hstates hpieces =>
    { hstates with display := hpieces }

theorem agree_onRandom {step step' : Step RandomBytes α} (h : Step.Agree Eq Eq step step') :
    Step.Agree (Resembles like) Eq (onRandom step) (onRandom step') :=
  h.on (fun _ _ hstates => hstates.random) fun _ _ _ _ hstates hpieces =>
    { hstates with random := hpieces }

theorem agree_jumpTo {address address' : Int} (h : like.address address address') :
    Step.Agree (Resembles like) Eq (jumpTo address) (jumpTo address') :=
  .modify fun _ _ hstates => { hstates with pc := h }

theorem agree_pointTo {address address' : Int} (h : like.address address address') :
    Step.Agree (Resembles like) Eq (pointTo address) (pointTo address') :=
  .modify fun _ _ hstates => { hstates with index := h }

theorem agree_put (x value : Int) :
    Step.Agree (Resembles like) Eq (put x value) (put x value) :=
  agree_onRegisters (Registers.agree_put x value)

/-- What begins with reading a register goes on from where it began. -/
theorem agreeFrom_value {S : α → β → Prop} (h : machine.Resembles like machine') (x : Int)
    {next : Nat → Step Machine α} {next' : Nat → Step Machine β}
    (hnext : ∀ vx, Step.AgreeFrom (Resembles like) S (next vx) (next' vx) machine machine') :
    Step.AgreeFrom (Resembles like) S (value x >>= next) (value x >>= next') machine machine' := by
  intro traced traced'
  simp only [Step.bind_apply, value_apply, h.registers]
  cases Store.item machine'.registers.bytes x with
  | error fault => exact ⟨h, rfl⟩
  | ok byte => exact hnext byte.toNat traced traced'

theorem agree_value {S : α → β → Prop} (x : Int) {next : Nat → Step Machine α}
    {next' : Nat → Step Machine β}
    (h : ∀ vx, Step.Agree (Resembles like) S (next vx) (next' vx)) :
    Step.Agree (Resembles like) S (value x >>= next) (value x >>= next') :=
  fun traced traced' _ _ hstates =>
    agreeFrom_value hstates x (fun vx => (h vx).apply hstates) traced traced'

theorem agree_putWithFlag (x value : Int) (flag : Bool) :
    Step.Agree (Resembles like) Eq (putWithFlag x value flag) (putWithFlag x value flag) :=
  .bindSame (agree_put x value) fun _ => agree_put _ _

theorem agree_skipIf (condition : Bool) :
    Step.Agree (Resembles like) Eq (skipIf condition) (skipIf condition) := by
  unfold skipIf
  split
  · refine .modify fun _ _ hstates => ?_
    exact { hstates with pc := like.address_mask (like.address_add 2 hstates.pc) }
  · exact .pure rfl

theorem agree_setDelay (delay : Int) :
    Step.Agree (Resembles like) Eq
      (Step.modify fun machine => { machine with timers := { machine.timers with delay := delay } })
      (Step.modify fun machine =>
        { machine with timers := { machine.timers with delay := delay } }) :=
  .modify fun _ _ hstates => { hstates with delay := rfl }

theorem agree_setSound (sound : Int) :
    Step.Agree (Resembles like) Eq
      (Step.modify fun machine => { machine with timers := { machine.timers with sound := sound } })
      (Step.modify fun machine =>
        { machine with timers := { machine.timers with sound := sound } }) :=
  .modify fun _ _ hstates => { hstates with sound := like.sound_refl sound }

theorem agree_tick : Step.Agree (Resembles like) Eq (Step.modify tick) (Step.modify tick) :=
  .modify fun _ _ hstates =>
    { hstates with
      delay := congrArg Timers.countDown hstates.delay
      sound := like.sound_countDown hstates.sound }

theorem agree_setAwaiting (awaiting : Option Int) :
    Step.Agree (Resembles like) Eq
      (Step.modify fun machine => { machine with awaiting := awaiting })
      (Step.modify fun machine => { machine with awaiting := awaiting }) :=
  .modify fun _ _ hstates => { hstates with awaiting := rfl }

theorem agree_takeDirty : Step.Agree (Resembles like) like.flag takeDirty takeDirty :=
  agree_onDisplay (Display.agree_takeDirty like.flag_refl)

theorem agree_keyDown (x : Int) : Step.Agree (Resembles like) Eq (keyDown x) (keyDown x) := by
  refine .bind .get ?_
  intro machine machine' hstates
  rw [hstates.keypad]
  exact agree_value x fun number => .ofExcept _

/-! ### Operations -/

theorem agree_waitForKey (x : Fin 16) :
    Step.Agree (Resembles like) Eq (waitForKey x) (waitForKey x) := by
  refine .bind .get ?_
  intro machine machine' hstates
  rw [hstates.keypad]
  refine .bindSame (.ofExcept _) fun key => ?_
  cases key with
  | some key => exact agree_put x key
  | none => exact .bindSame (agree_setAwaiting (some x.val)) fun _ => .note

theorem agree_resume (x : Int) :
    Step.Agree (Resembles like) Eq (resume x) (resume x) := by
  refine .bind .get ?_
  intro machine machine' hstates
  rw [hstates.keypad]
  refine .bindSame (.ofExcept _) fun key => ?_
  cases key with
  | some key => exact .bindSame (agree_put x key) fun _ => agree_setAwaiting none
  | none => exact .pure rfl

/-- Reading the bytes that an instruction asks for comes to the same from both machines. -/
def ReadAlike (like : Resemblance) (i : Instruction) (machine machine' : Machine) : Prop :=
  Step.AgreeFrom (Resembles like) Eq (onMemory (Memory.readFrom machine.index i.reach))
    (onMemory (Memory.readFrom machine'.index i.reach)) machine machine'

theorem agreeFrom_drawSprite (x y : Nat) {height : Nat}
    (hread : Step.AgreeFrom (Resembles like) Eq (onMemory (Memory.readFrom machine.index height))
      (onMemory (Memory.readFrom machine'.index height)) machine machine') :
    Step.AgreeFrom (Resembles like) Eq (drawSprite x y height) (drawSprite x y height)
      machine machine' := by
  refine .get_bind ?_
  refine .bindSame hread fun sprite => ?_
  refine .bindSame (agree_put _ 0) fun _ => ?_
  refine .bindSame (agree_onDisplay (Display.agree_draw like.flag_refl x y _)) fun hit => ?_
  split
  · exact agree_put _ 1
  · exact .pure rfl

/-- Machines that resemble each other still do after an instruction, if it reads the same bytes from
both. -/
theorem agreeFrom_execute (h : machine.Resembles like machine') {i : Instruction}
    (hread : ReadAlike like i machine machine') :
    Step.AgreeFrom (Resembles like) Eq (execute i) (execute i) machine machine' := by
  refine .get_bind ?_
  have hindex := h.index
  rw [h.delay]
  -- Only drawing and loading registers read from I on; the others come to steps that agree from any
  -- two machines that resemble each other.
  cases hop : i.operation with
  | clearScreen =>
      have hclear : Step.Agree (Display.Resembles like.flag) Eq (Step.modify Display.clear)
          (Step.modify Display.clear) := .modify fun _ _ hdisplay => hdisplay.clear like.flag_refl
      exact (agree_onDisplay hclear).apply h
  | returnFromCall =>
      have hpop := agree_onStack like.stack_pop
      exact (hpop.bind fun _ _ haddress => agree_jumpTo haddress).apply h
  | jump => exact (agree_jumpTo (like.address_refl _)).apply h
  | call =>
      have hpush := agree_onStack (like.stack_push h.pc)
      exact (hpush.bindSame fun _ => agree_jumpTo (like.address_refl _)).apply h
  | skipIfByte | skipUnlessByte => exact (agree_value _ fun vx => agree_skipIf _).apply h
  | skipIfSame | skipUnlessSame =>
      exact (agree_value _ fun vx => agree_value _ fun vy => agree_skipIf _).apply h
  | loadByte => exact (agree_put _ _).apply h
  | addByte | copy => exact (agree_value _ fun v => agree_put _ _).apply h
  | bitOr | bitAnd | bitXor =>
      exact (agree_value _ fun vx => agree_value _ fun vy => agree_put _ _).apply h
  | add | subtract | subtractFrom =>
      exact (agree_value _ fun vx => agree_value _ fun vy => agree_putWithFlag _ _ _).apply h
  | shiftRight | shiftLeft => exact (agree_value _ fun vx => agree_putWithFlag _ _ _).apply h
  | loadIndex => exact (agree_pointTo (like.address_refl _)).apply h
  | jumpWithOffset =>
      exact (agree_value _ fun offset => agree_jumpTo (like.address_refl _)).apply h
  | random =>
      refine Step.Agree.apply ?_ h
      exact .bindSame (agree_onRandom RandomBytes.agree_draw) fun byte => agree_put _ _
  | draw =>
      simp only [ReadAlike, Instruction.reach, hop] at hread
      refine agreeFrom_value h _ fun vx => agreeFrom_value h _ fun vy => ?_
      exact agreeFrom_drawSprite vx vy hread
  | skipIfPressed | skipUnlessPressed =>
      exact (Step.Agree.bindSame (agree_keyDown _) fun down => agree_skipIf _).apply h
  | readDelay => exact (agree_put _ _).apply h
  | awaitKey => exact (agree_waitForKey _).apply h
  | setDelay => exact (agree_value _ fun vx => agree_setDelay _).apply h
  | setSound => exact (agree_value _ fun vx => agree_setSound _).apply h
  | addIndex =>
      refine (agree_value _ fun vx => ?_).apply h
      exact agree_pointTo (like.address_mask (like.address_add _ hindex))
  | selectGlyph => exact (agree_value _ fun vx => agree_pointTo (like.address_refl _)).apply h
  | storeDecimal =>
      exact (agree_value _ fun vx => agree_onMemory (like.agree_writeFrom hindex _)).apply h
  | storeRegisters =>
      refine Step.Agree.apply ?_ h
      refine .bindSame (agree_onRegisters (Registers.agree_valuesFrom 0 _)) fun values => ?_
      exact agree_onMemory (like.agree_writeFrom hindex _)
  | loadRegisters =>
      simp only [ReadAlike, Instruction.reach, hop] at hread
      exact hread.bindSame fun bytes => agree_onRegisters (Registers.agree_putFrom 0 bytes)
  | unknown => exact Step.Agree.note.apply h

/-! ### Cycles and frames -/

theorem agree_fetch (hlike : like.Transparent) :
    Step.Agree (Resembles like) Eq fetch fetch := by
  refine .bind .get ?_
  intro machine machine' h
  refine .bindSame (agree_onMemory (hlike _ _ h.pc)) fun high => ?_
  refine .bindSame (agree_onMemory (hlike _ _ (like.address_add 1 h.pc))) fun low => ?_
  refine .bindSame (.modify fun _ _ hstates => ?_) fun _ => ?_
  · exact { hstates with opcode := like.opcode_refl _ }
  · refine .bindSame (.modify fun _ _ hstates => ?_) fun _ => .pure rfl
    exact { hstates with pc := like.address_mask (like.address_add 2 hstates.pc) }

theorem agree_trace (i : Instruction) : Step.Agree (Resembles like) Eq (trace i) (trace i) :=
  .bind .get fun _ _ _ => .note

theorem agree_execute (hlike : like.Transparent) (i : Instruction) :
    Step.Agree (Resembles like) Eq (execute i) (execute i) := by
  intro traced traced' machine machine' h
  have hread := agree_onMemory (hlike.agree_readFrom h.index i.reach)
  exact agreeFrom_execute h (hread.apply h) traced traced'

theorem agree_cycle (hlike : like.Transparent) :
    Step.Agree (Resembles like) Eq cycle cycle := by
  refine .bind .get ?_
  intro machine machine' h
  rw [h.awaiting]
  cases machine'.awaiting with
  | some register => exact agree_resume register
  | none =>
      refine .bindSame (agree_fetch hlike) fun i => ?_
      exact .bindSame (agree_trace i) fun _ => agree_execute hlike i

theorem agree_cycles (hlike : like.Transparent) (count : Nat) :
    Step.Agree (Resembles like) Eq (cycles count) (cycles count) := by
  induction count with
  | zero => exact .pure rfl
  | succ count ih => exact .bindSame (agree_cycle hlike) fun _ => ih

theorem agree_frame (hlike : like.Transparent) (count : Int) :
    Step.Agree (Resembles like) like.flag (frame count) (frame count) :=
  .bindSame (agree_cycles hlike count.toNat) fun _ => .bindSame agree_tick fun _ => agree_takeDirty

/-! ### Runs -/

theorem Resembles.powerOn {capacity capacity' : Int} {random : RandomBytes}
    (hstack : like.stack (.empty capacity) (.empty capacity')) :
    (powerOn capacity random).Resembles like (Machine.powerOn capacity' random) where
  memory := like.memory_initial
  stack := hstack
  registers := rfl
  pc := like.address_refl programStart
  index := like.address_refl 0
  delay := rfl
  sound := like.sound_refl 0
  display := ⟨rfl, rfl, rfl, like.flag_refl false⟩
  keypad := rfl
  awaiting := rfl
  opcode := like.opcode_refl 0
  random := rfl

theorem Resembles.reset (h : machine.Resembles like machine') :
    machine.reset.Resembles like machine'.reset := by
  rw [Machine.reset, Machine.reset, h.random]
  exact .powerOn (like.stack_empty h.stack)

theorem agree_perform (hlike : like.Transparent) (command : Command) :
    Step.Agree (Resembles like) (Option.Rel like.flag) (perform command) (perform command) := by
  cases command with
  | load program =>
      exact .bindSame (agree_onMemory (like.memory_load program)) fun _ => .pure .none
  | cycle => exact .bindSame (agree_cycle hlike) fun _ => .pure .none
  | frame count => exact .bind (agree_frame hlike count) fun _ _ hdirty => .pure (.some hdirty)
  | tick => exact .bindSame agree_tick fun _ => .pure .none
  | press key => exact .bindSame (agree_onKeypad (Keypad.agree_put key 1)) fun _ => .pure .none
  | release key => exact .bindSame (agree_onKeypad (Keypad.agree_put key 0)) fun _ => .pure .none
  | takeDirty => exact .bind agree_takeDirty fun _ _ hdirty => .pure (.some hdirty)
  | reset => exact .bindSame (.modify fun _ _ hstates => hstates.reset) fun _ => .pure .none

variable (traced traced' : Bool)

theorem Resembles.cycleStarts (hlike : like.Transparent) (h : machine.Resembles like machine')
    (count : Nat) :
    List.Forall₂ (Resembles like) (machine.cycleStarts traced count)
      (machine'.cycleStarts traced' count) := by
  induction count generalizing machine machine' with
  | zero => exact .nil
  | succ count ih =>
      obtain ⟨hstates, hresults⟩ := agree_cycle hlike traced traced' machine machine' h
      rw [resultsAgree_eq_iff] at hresults
      simp only [Machine.cycleStarts, ← hresults]
      split
      · exact .cons h (ih hstates)
      · exact .cons h .nil

theorem Resembles.startsOf (hlike : like.Transparent) (h : machine.Resembles like machine')
    (command : Command) :
    List.Forall₂ (Resembles like) (machine.startsOf traced command)
      (machine'.startsOf traced' command) := by
  cases command with
  | cycle => exact .cons h .nil
  | frame count => exact h.cycleStarts traced traced' hlike count.toNat
  | _ => exact .nil

/-- Machines that resemble each other answer a run of commands alike, and resemble each other
whenever a cycle begins and in the end. -/
theorem Resembles.run (hlike : like.Transparent) (h : machine.Resembles like machine')
    (commands : List Command) :
    List.Forall₂ (ResultsAgree (Option.Rel like.flag)) (machine.results traced commands)
        (machine'.results traced' commands) ∧
      List.Forall₂ (Resembles like) (machine.starts traced commands)
        (machine'.starts traced' commands) ∧
      (machine.after traced commands).Resembles like (machine'.after traced' commands) := by
  induction commands generalizing machine machine' with
  | nil => exact ⟨.nil, .nil, h⟩
  | cons command rest ih =>
      obtain ⟨hstates, hresult⟩ := agree_perform hlike command traced traced' machine machine' h
      obtain ⟨hresults, hstarts, hafter⟩ := ih hstates
      refine ⟨.cons hresult hresults, ?_, hafter⟩
      exact List.rel_append (h.startsOf traced traced' hlike command) hstarts

end Machine

/-! ### Nothing overlooked -/

namespace Memory

theorem agree_checkAddress (address address' : Int) :
    Step.Agree (Eq : Memory → Memory → Prop) Eq (checkAddress address)
      (checkAddress address') := by
  unfold checkAddress
  intro traced traced' memory memory' h
  split <;> split <;> exact ⟨h, rfl⟩

theorem agree_read {address address' : Int} (hcell : cellOf address = cellOf address') :
    Step.Agree Eq Eq (read address) (read address') := by
  refine .bindSame (agree_checkAddress _ _) fun _ => .bindSame .get fun memory => ?_
  rw [hcell]
  exact .ofExcept _

theorem agree_write {address address' : Int} (hcell : cellOf address = cellOf address')
    (value : Int) : Step.Agree Eq Eq (write address value) (write address' value) := by
  refine .bindSame (agree_checkAddress _ _) fun _ => .bindSame .get fun memory => ?_
  rw [hcell]
  exact .bindSame (.ofExcept _) fun cells => .modifySame _

theorem agree_load (program : List Int) :
    Step.Agree Eq Eq (load program) (load program) := by
  unfold load
  split
  · exact .fail
  · refine .bindSame (.ofExcept _) fun bytes => ?_
    exact .bindSame (.modifySame _) fun _ => .note

end Memory

theorem CallStack.agree_push_same (address : Int) :
    Step.Agree Eq Eq (push address) (push address) := by
  refine .bindSame .get fun stack => ?_
  split
  · exact .fail
  · exact .bindSame (.ofExcept _) fun slots => .modifySame _

theorem CallStack.agree_pop_same : Step.Agree Eq Eq pop pop := by
  refine .bindSame .get fun stack => ?_
  split
  · exact .fail
  · exact .bindSame (.modifySame _) fun _ => .ofExcept _

def Resemblance.exact : Resemblance where
  memory := Eq
  stack := Eq
  address := Eq
  sound := Eq
  flag := Eq
  opcode := Eq
  memory_initial := rfl
  memory_write value haddress := Memory.agree_write (congrArg Memory.cellOf haddress) value
  memory_load := Memory.agree_load
  stack_empty hstack := by rw [hstack]
  stack_push haddress := haddress ▸ CallStack.agree_push_same _
  stack_pop := CallStack.agree_pop_same
  address_refl _ := rfl
  address_add _ haddress := by rw [haddress]
  address_mask haddress := by rw [haddress]
  sound_refl _ := rfl
  sound_countDown hticks := by rw [hticks]
  flag_refl _ := rfl
  opcode_refl _ := rfl

theorem Resemblance.transparent_exact : exact.Transparent :=
  fun _ _ haddress => Memory.agree_read (congrArg Memory.cellOf haddress)

namespace Machine

theorem Resembles.exact_iff {machine machine' : Machine} :
    machine.Resembles .exact machine' ↔ machine = machine' := by
  constructor
  · intro h
    exact Machine.ext h.memory h.stack h.registers h.pc h.index (Timers.ext h.delay h.sound)
      (Display.ext h.display.width h.display.height h.display.cells h.display.dirty) h.keypad
      h.awaiting h.opcode h.random
  · rintro rfl
    exact ⟨rfl, rfl, rfl, rfl, rfl, rfl, rfl, ⟨rfl, rfl, rfl, rfl⟩, rfl, rfl, rfl, rfl⟩

/-- Tracing has no say in what a run comes to. -/
theorem run_eq_of_tracing (machine : Machine) (traced traced' : Bool) (commands : List Command) :
    machine.results traced commands = machine.results traced' commands ∧
      machine.starts traced commands = machine.starts traced' commands ∧
      machine.after traced commands = machine.after traced' commands := by
  obtain ⟨hresults, hstarts, hafter⟩ := (Resembles.exact_iff.mpr (Eq.refl machine)).run traced
    traced' Resemblance.transparent_exact commands
  refine ⟨?_, ?_, Resembles.exact_iff.mp hafter⟩
  · rw [← List.forall₂_eq_eq_eq]
    exact hresults.imp fun _ _ hresult => eq_of_resultsAgree hresult
  · rw [← List.forall₂_eq_eq_eq]
    exact hstarts.imp fun _ _ hstart => Resembles.exact_iff.mp hstart

end Machine

end ChipEight
