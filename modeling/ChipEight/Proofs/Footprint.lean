import ChipEight.Proofs.Safety
import ChipEight.Proofs.Wholeness

/-!
What a cycle writes. Every instruction has a list of the parts of the machine that it may write,
whatever its operands are and whether it succeeds or fails. All other parts stay as they are; what
comes into the memory and how much is drawn at random is told exactly.
-/

namespace ChipEight

variable {α β : Type}

inductive Machine.Part where
  | memory
  | stack
  | register (x : Fin 16)
  | pc
  | index
  | delay
  | sound
  | display
  | keypad
  | awaiting
  | opcode
  | random
  deriving DecidableEq

/-- Two states of a machine hold the same in a part. -/
def Machine.Part.Same (machine after : Machine) : Part → Prop
  | memory => after.memory = machine.memory
  | stack => after.stack = machine.stack
  | register x => after.registers.get x = machine.registers.get x
  | pc => after.pc = machine.pc
  | index => after.index = machine.index
  | delay => after.timers.delay = machine.timers.delay
  | sound => after.timers.sound = machine.timers.sound
  | display => after.display = machine.display
  | keypad => after.keypad = machine.keypad
  | awaiting => after.awaiting = machine.awaiting
  | opcode => after.opcode = machine.opcode
  | random => after.random = machine.random

/-- Some values have been written from an address on, and nothing else. -/
structure Memory.Overwritten (before after : Memory) (address : Int) (values : List Nat) :
    Prop where
  written : ∀ k (hk : k < values.length),
    (after.get ((address + k) % 0x1000)).toNat = values[k]
  kept : ∀ other, (∀ k < values.length, other % 0x1000 ≠ (address + k) % 0x1000) →
    after.get other = before.get other

/-- The parts that the cycle of a word may write, the program counter and the opcode aside; `x` is
the second digit of the word. -/
def Machine.Part.writtenBy (word : Nat) (x : Fin 16) : List Machine.Part :=
  match word / 0x1000 with
  | 0x0 => if word = 0x00E0 then [.display] else if word = 0x00EE then [.stack] else []
  | 0x2 => [.stack]
  | 0x6 | 0x7 => [.register x]
  | 0x8 =>
      match word % 0x10 with
      | 0x0 | 0x1 | 0x2 | 0x3 => [.register x]
      | 0x4 | 0x5 | 0x6 | 0x7 | 0xE => [.register x, .register flagRegister]
      | _ => []
  | 0xA => [.index]
  | 0xC => [.register x, .random]
  | 0xD => [.display, .register flagRegister]
  | 0xF =>
      match word % 0x100 with
      | 0x07 => [.register x]
      | 0x0A => [.register x, .awaiting]
      | 0x15 => [.delay]
      | 0x18 => [.sound]
      | 0x1E | 0x29 => [.index]
      | 0x33 | 0x55 => [.memory]
      | 0x65 => ((List.finRange 16).take (x + 1)).map .register
      | _ => []
  | _ => []

/-- The same by the operation of an instruction. -/
def Instruction.writes (i : Instruction) : List Machine.Part :=
  match i.operation with
  | .clearScreen => [.display]
  | .returnFromCall | .call => [.stack]
  | .jump | .jumpWithOffset | .unknown => []
  | .skipIfByte | .skipUnlessByte | .skipIfSame | .skipUnlessSame => []
  | .skipIfPressed | .skipUnlessPressed => []
  | .loadByte | .addByte | .copy | .bitOr | .bitAnd | .bitXor | .readDelay => [.register i.x]
  | .add | .subtract | .subtractFrom | .shiftRight | .shiftLeft =>
      [.register i.x, .register flagRegister]
  | .loadIndex | .addIndex | .selectGlyph => [.index]
  | .random => [.register i.x, .random]
  | .draw => [.display, .register flagRegister]
  | .awaitKey => [.register i.x, .awaiting]
  | .setDelay => [.delay]
  | .setSound => [.sound]
  | .storeDecimal | .storeRegisters => [.memory]
  | .loadRegisters => ((List.finRange 16).take (i.x + 1)).map .register

theorem Instruction.writes_decode {word : Nat} (hword : word < 0x10000) :
    (decode word).writes = Machine.Part.writtenBy word (decode word).x := by
  have hop : (decode word).operation = .ofWord word := Operation.ofOpcode_eq_ofWord hword
  rw [writes, hop]
  unfold Machine.Part.writtenBy
  fun_cases Operation.ofWord word
  all_goals simp_all
  rw [Nat.div_eq_of_lt ‹_›]
  rfl

/-- The program counter, for an instruction that may move it beyond what fetching does. -/
def Instruction.steers (i : Instruction) : List Machine.Part :=
  match i.operation with
  | .returnFromCall | .jump | .call | .jumpWithOffset => [.pc]
  | .skipIfByte | .skipUnlessByte | .skipIfSame | .skipUnlessSame => [.pc]
  | .skipIfPressed | .skipUnlessPressed => [.pc]
  | _ => []

/-! ### Steps of the parts, whatever state they are in -/

namespace Memory

theorem state_read (address : Int) (traced : Bool) (memory : Memory) :
    (read address traced memory).state = memory := by
  simp [read, checkAddress_eq]

theorem state_readFrom (address : Int) (count : Nat) (traced : Bool) (memory : Memory) :
    (readFrom address count traced memory).state = memory := by
  induction count generalizing address with
  | zero => rfl
  | succ count ih =>
      have hfirst := state_read address traced memory
      cases hresult : (read address traced memory).result with
      | error fault => rw [readFrom, Step.bind_of_error hresult, hfirst]
      | ok byte =>
          rw [readFrom, Step.bind_of_ok hresult, Step.state_bind_pure, hfirst]
          exact ih (address + 1)

theorem length_of_readFrom {address : Int} {count : Nat} {traced : Bool} {memory : Memory}
    {bytes : List UInt8} (hresult : (readFrom address count traced memory).result = .ok bytes) :
    bytes.length = count := by
  induction count generalizing address memory bytes with
  | zero => rw [← Except.ok.inj hresult, List.length_nil]
  | succ count ih =>
      cases hfirst : (read address traced memory).result with
      | error fault =>
          rw [readFrom, Step.bind_of_error hfirst] at hresult
          cases hresult
      | ok byte =>
          rw [readFrom, Step.bind_of_ok hfirst] at hresult
          cases hrest : (readFrom (address + 1) count traced
              (read address traced memory).state).result with
          | error fault =>
              rw [Step.bind_of_error hrest] at hresult
              cases hresult
          | ok rest =>
              rw [Step.bind_of_ok hrest] at hresult
              rw [← Except.ok.inj hresult, List.length_cons, ih hrest]

end Memory

namespace Registers

theorem getElem?_state_put {place k : Nat} (value : Int) (traced : Bool) (registers : Registers)
    (hne : place ≠ k) :
    (put place value traced registers).state.bytes[k]? = registers.bytes[k]? := by
  cases hassign : Store.assignByte registers.bytes place value with
  | error fault => simp [put, hassign]
  | ok bytes => simpa [put, hassign] using Store.getElem?_of_assignByte hassign hne

theorem getElem?_state_putFrom {place k : Nat} {bytes : List UInt8} (traced : Bool)
    (registers : Registers) (hpast : place + bytes.length ≤ k) :
    (putFrom place bytes traced registers).state.bytes[k]? = registers.bytes[k]? := by
  induction bytes generalizing registers place with
  | nil => rfl
  | cons byte rest ih =>
      rw [List.length_cons] at hpast
      have hfirst := getElem?_state_put byte.toNat traced registers (by omega : place ≠ k)
      have hrest := ih (put place byte.toNat traced registers).state
        (by omega : place + 1 + rest.length ≤ k)
      rw [Nat.cast_succ] at hrest
      cases hresult : (put place byte.toNat traced registers).result with
      | error fault => rw [putFrom, Step.bind_of_error hresult, hfirst]
      | ok done => rw [putFrom, Step.bind_of_ok hresult, hrest, hfirst]

theorem state_value (x : Int) (traced : Bool) (registers : Registers) :
    (value x traced registers).state = registers := by
  rw [value, Step.get_bind, Step.state_bind_pure, Step.ofExcept_apply]

theorem state_valuesFrom (x : Int) (count : Nat) (traced : Bool) (registers : Registers) :
    (valuesFrom x count traced registers).state = registers := by
  induction count generalizing x with
  | zero => rfl
  | succ count ih =>
      have hfirst := state_value x traced registers
      cases hresult : (value x traced registers).result with
      | error fault => rw [valuesFrom, Step.bind_of_error hresult, hfirst]
      | ok first =>
          rw [valuesFrom, Step.bind_of_ok hresult, Step.state_bind_pure, hfirst]
          exact ih (x + 1)

end Registers

namespace Machine

def writes (machine : Machine) : List Part :=
  match machine.awaiting with
  | none =>
      .pc :: .opcode ::
        Part.writtenBy machine.nextOpcode ⟨machine.nextOpcode / 0x100 % 0x10,
          Nat.mod_lt _ (by decide)⟩
  | some register =>
      .awaiting :: ((List.finRange 16).filter fun x => (x.val : Int) = register).map .register

theorem writes_of_next? {machine : Machine} {i : Instruction} (hnext : machine.next? = some i) :
    machine.writes = .pc :: .opcode :: i.writes := by
  have hword := nextOpcode_lt machine
  have hx : (Instruction.decode machine.nextOpcode).x
      = ⟨machine.nextOpcode / 0x100 % 0x10, Nat.mod_lt _ (by decide)⟩ := by
    have hfield := (Instruction.fields_decode machine.nextOpcode).1
    refine Fin.ext ?_
    dsimp only
    omega
  rw [writes, awaiting_of_next? hnext, eq_decode_of_next? hnext, Instruction.writes_decode hword,
    hx]

theorem writes_of_awaiting {machine : Machine} {x : Fin 16}
    (hawaiting : machine.awaiting = some (x.val : Int)) :
    machine.writes = [.awaiting, .register x] := by
  have hsame : ((List.finRange 16).filter fun y => (y.val : Int) = x.val) = [x] := by
    clear hawaiting
    revert x
    decide
  rw [writes, hawaiting]
  simp only [hsame, List.map_singleton]

theorem Part.same_refl (machine : Machine) (part : Part) : part.Same machine machine := by
  cases part <;> rfl

theorem Part.Same.trans {machine between after : Machine} {part : Part}
    (hfirst : part.Same machine between) (hsecond : part.Same between after) :
    part.Same machine after := by
  cases part <;> exact Eq.trans hsecond hfirst

/-- Whether it succeeds or fails, a step leaves alone all but some parts. -/
def Touches (parts : List Part) (step : Step Machine α) : Prop :=
  ∀ traced machine, ∀ part ∉ parts, part.Same machine (step traced machine).state

variable {parts : List Part}

/-! ### Steps -/

theorem touches_of_state_eq {step : Step Machine α}
    (h : ∀ traced machine, (step traced machine).state = machine) : Touches parts step := by
  intro traced machine part _
  rw [h traced machine]
  exact part.same_refl machine

/-- The second step may rely on what the first one comes to. -/
theorem Touches.bindOf {first : Step Machine α} {second : α → Step Machine β}
    (hfirst : Touches parts first)
    (hsecond : ∀ traced machine a, (first traced machine).result = .ok a →
      Touches parts (second a)) : Touches parts (first >>= second) := by
  intro traced machine part hpart
  have hbetween := hfirst traced machine part hpart
  cases hresult : (first traced machine).result with
  | error fault =>
      rw [Step.bind_of_error hresult]
      exact hbetween
  | ok a =>
      rw [Step.bind_of_ok hresult]
      exact hbetween.trans (hsecond traced machine a hresult traced _ part hpart)

theorem Touches.bind {first : Step Machine α} {second : α → Step Machine β}
    (hfirst : Touches parts first) (hsecond : ∀ a, Touches parts (second a)) :
    Touches parts (first >>= second) :=
  hfirst.bindOf fun _ _ a _ => hsecond a

theorem touches_onMemory (step : Step Memory α) (hmem : .memory ∈ parts) :
    Touches parts (onMemory step) := by
  intro traced machine part hpart
  cases part with
  | memory => exact absurd hmem hpart
  | _ => rfl

theorem touches_onStack (step : Step CallStack α) (hmem : .stack ∈ parts) :
    Touches parts (onStack step) := by
  intro traced machine part hpart
  cases part with
  | stack => exact absurd hmem hpart
  | _ => rfl

theorem touches_onDisplay (step : Step Display α) (hmem : .display ∈ parts) :
    Touches parts (onDisplay step) := by
  intro traced machine part hpart
  cases part with
  | display => exact absurd hmem hpart
  | _ => rfl

theorem touches_onRandom (step : Step RandomBytes α) (hmem : .random ∈ parts) :
    Touches parts (onRandom step) := by
  intro traced machine part hpart
  cases part with
  | random => exact absurd hmem hpart
  | _ => rfl

theorem touches_onRegisters {step : Step Registers α}
    (hstep : ∀ traced registers x, .register x ∉ parts →
      (step traced registers).state.get x = registers.get x) :
    Touches parts (onRegisters step) := by
  intro traced machine part hpart
  cases part with
  | register x => exact hstep traced machine.registers x hpart
  | _ => rfl

theorem touches_readFrom (address : Int) (count : Nat) :
    Touches parts (onMemory (Memory.readFrom address count)) := by
  apply touches_of_state_eq
  intro traced machine
  rw [onMemory, Step.on_apply, Memory.state_readFrom]

theorem touches_value (x : Int) : Touches parts (value x) :=
  touches_of_state_eq fun traced machine => by rw [value_apply]

theorem touches_valuesFrom (x : Int) (count : Nat) :
    Touches parts (onRegisters (Registers.valuesFrom x count)) :=
  touches_of_state_eq fun traced machine => by
    rw [onRegisters, Step.on_apply, Registers.state_valuesFrom]

theorem touches_jumpTo (address : Int) (hmem : .pc ∈ parts) : Touches parts (jumpTo address) := by
  intro traced machine part hpart
  cases part with
  | pc => exact absurd hmem hpart
  | _ => rfl

theorem touches_pointTo (address : Int) (hmem : .index ∈ parts) :
    Touches parts (pointTo address) := by
  intro traced machine part hpart
  cases part with
  | index => exact absurd hmem hpart
  | _ => rfl

theorem touches_skipIf (condition : Bool) (hmem : .pc ∈ parts) :
    Touches parts (skipIf condition) := by
  intro traced machine part hpart
  cases condition with
  | false => exact part.same_refl machine
  | true =>
      cases part with
      | pc => exact absurd hmem hpart
      | _ => rfl

theorem touches_put (x : Fin 16) (value : Int) (hmem : .register x ∈ parts) :
    Touches parts (put x.val value) := by
  apply touches_onRegisters
  intro traced registers y hy
  have hne : x.val ≠ y.val := fun heq => hy (Fin.ext heq ▸ hmem)
  rw [Registers.get, Registers.getElem?_state_put value traced registers hne, Registers.get]

theorem touches_putWithFlag (x : Fin 16) (value : Int) (flag : Bool)
    (hx : .register x ∈ parts) (hflag : .register flagRegister ∈ parts) :
    Touches parts (putWithFlag x.val value flag) :=
  (touches_put x value hx).bind fun _ => touches_put flagRegister _ hflag

theorem touches_setAwaiting (awaiting : Option Int) (hmem : .awaiting ∈ parts) :
    Touches parts (Step.modify fun machine => { machine with awaiting := awaiting }) := by
  intro traced machine part hpart
  cases part with
  | awaiting => exact absurd hmem hpart
  | _ => rfl

theorem touches_setDelay (delay : Int) (hmem : .delay ∈ parts) :
    Touches parts (Step.modify fun machine =>
      { machine with timers := { machine.timers with delay := delay } }) := by
  intro traced machine part hpart
  cases part with
  | delay => exact absurd hmem hpart
  | _ => rfl

theorem touches_setSound (sound : Int) (hmem : .sound ∈ parts) :
    Touches parts (Step.modify fun machine =>
      { machine with timers := { machine.timers with sound := sound } }) := by
  intro traced machine part hpart
  cases part with
  | sound => exact absurd hmem hpart
  | _ => rfl

theorem touches_waitForKey (x : Fin 16) (hx : .register x ∈ parts) (hmem : .awaiting ∈ parts) :
    Touches parts (waitForKey x) := by
  refine .bind (touches_of_state_eq fun _ _ => rfl) fun machine => ?_
  refine .bind (touches_of_state_eq fun _ _ => rfl) fun key => ?_
  cases key with
  | some key => exact touches_put x _ hx
  | none =>
      refine (touches_setAwaiting (some x.val) hmem).bind fun _ => ?_
      exact touches_of_state_eq fun _ _ => rfl

theorem touches_resume (x : Fin 16) (hx : .register x ∈ parts) (hmem : .awaiting ∈ parts) :
    Touches parts (resume x.val) := by
  refine .bind (touches_of_state_eq fun _ _ => rfl) fun machine => ?_
  refine .bind (touches_of_state_eq fun _ _ => rfl) fun key => ?_
  cases key with
  | some key => exact (touches_put x _ hx).bind fun _ => touches_setAwaiting none hmem
  | none => exact touches_of_state_eq fun _ _ => rfl

theorem touches_keyDown (x : Int) : Touches parts (keyDown x) := by
  refine .bind (touches_of_state_eq fun _ _ => rfl) fun machine => ?_
  exact (touches_value x).bind fun number => touches_of_state_eq fun _ _ => rfl

theorem touches_drawSprite (x y height : Nat) (hdisplay : .display ∈ parts)
    (hflag : .register flagRegister ∈ parts) : Touches parts (drawSprite x y height) := by
  refine .bind (touches_of_state_eq fun _ _ => rfl) fun machine => ?_
  refine (touches_readFrom _ height).bind fun sprite => ?_
  refine (touches_put flagRegister 0 hflag).bind fun _ => ?_
  refine (touches_onDisplay _ hdisplay).bind fun hit => ?_
  split
  · exact touches_put flagRegister 1 hflag
  · exact touches_of_state_eq fun _ _ => rfl

theorem touches_putFrom {bytes : List UInt8} {count : Nat} (hlength : bytes.length = count)
    (hmem : ∀ x ∈ (List.finRange 16).take count, .register x ∈ parts) :
    Touches parts (onRegisters (Registers.putFrom 0 bytes)) := by
  apply touches_onRegisters
  intro traced registers x hx
  have hpast : 0 + bytes.length ≤ x.val := by
    by_contra hlt
    refine hx (hmem x ?_)
    rw [List.mem_take_iff_getElem]
    exact ⟨x.val, by simp; omega, by simp⟩
  have hkept := Registers.getElem?_state_putFrom traced registers hpast
  rw [Nat.cast_zero] at hkept
  rw [Registers.get, hkept, Registers.get]

/-! ### Instructions -/

/-- Executing an instruction touches only what it may write, and the program counter if the
instruction steers. -/
theorem touches_execute (i : Instruction) : Touches (i.steers ++ i.writes) (execute i) := by
  refine .bind (touches_of_state_eq fun _ _ => rfl) fun machine => ?_
  unfold Instruction.steers Instruction.writes
  cases i.operation with
  | clearScreen => exact touches_onDisplay _ (by simp)
  | returnFromCall =>
      exact (touches_onStack _ (by simp)).bind fun address => touches_jumpTo address (by simp)
  | jump => exact touches_jumpTo _ (by simp)
  | call => exact (touches_onStack _ (by simp)).bind fun _ => touches_jumpTo _ (by simp)
  | skipIfByte | skipUnlessByte =>
      exact (touches_value _).bind fun vx => touches_skipIf _ (by simp)
  | skipIfSame | skipUnlessSame =>
      exact (touches_value _).bind fun vx =>
        (touches_value _).bind fun vy => touches_skipIf _ (by simp)
  | loadByte => exact touches_put i.x _ (by simp)
  | addByte | copy => exact (touches_value _).bind fun v => touches_put i.x _ (by simp)
  | bitOr | bitAnd | bitXor =>
      exact (touches_value _).bind fun vx =>
        (touches_value _).bind fun vy => touches_put i.x _ (by simp)
  | add | subtract | subtractFrom =>
      exact (touches_value _).bind fun vx =>
        (touches_value _).bind fun vy => touches_putWithFlag i.x _ _ (by simp) (by simp)
  | shiftRight | shiftLeft =>
      exact (touches_value _).bind fun vx => touches_putWithFlag i.x _ _ (by simp) (by simp)
  | loadIndex => exact touches_pointTo _ (by simp)
  | jumpWithOffset => exact (touches_value _).bind fun offset => touches_jumpTo _ (by simp)
  | random => exact (touches_onRandom _ (by simp)).bind fun _ => touches_put i.x _ (by simp)
  | draw =>
      exact (touches_value _).bind fun vx =>
        (touches_value _).bind fun vy => touches_drawSprite _ _ _ (by simp) (by simp)
  | skipIfPressed | skipUnlessPressed =>
      exact (touches_keyDown _).bind fun down => touches_skipIf _ (by simp)
  | readDelay => exact touches_put i.x _ (by simp)
  | awaitKey => exact touches_waitForKey _ (by simp) (by simp)
  | setDelay => exact (touches_value _).bind fun vx => touches_setDelay _ (by simp)
  | setSound => exact (touches_value _).bind fun vx => touches_setSound _ (by simp)
  | addIndex | selectGlyph => exact (touches_value _).bind fun vx => touches_pointTo _ (by simp)
  | storeDecimal => exact (touches_value _).bind fun vx => touches_onMemory _ (by simp)
  | storeRegisters =>
      exact (touches_valuesFrom _ _).bind fun values => touches_onMemory _ (by simp)
  | loadRegisters =>
      refine (touches_readFrom _ _).bindOf fun traced before bytes hread => ?_
      have hlength : bytes.length = i.x + 1 := Memory.length_of_readFrom hread
      refine touches_putFrom hlength fun x hx => ?_
      exact List.mem_append_right _ (List.mem_map_of_mem hx)
  | unknown => exact touches_of_state_eq fun _ _ => rfl

/-! ### Cycles -/

variable {machine : Machine} {traced : Bool} {i : Instruction}

theorem not_mem_steers {part : Part} (hpc : part ≠ .pc) : part ∉ i.steers := by
  unfold Instruction.steers
  cases i.operation <;> simp [hpc]

theorem same_fetched {part : Part} (hpc : part ≠ .pc) (hopcode : part ≠ .opcode) :
    part.Same machine machine.fetched := by
  cases part with
  | pc => exact absurd rfl hpc
  | opcode => exact absurd rfl hopcode
  | _ => rfl

/-- Whether it succeeds or fails, a cycle leaves alone all that is not listed. -/
theorem same_cycle (hmachine : machine.Whole) (traced : Bool) {part : Part}
    (hpart : part ∉ machine.writes) : part.Same machine (cycle traced machine).state := by
  cases hnext : machine.next? with
  | none =>
      obtain ⟨x, hawaiting⟩ := exists_awaiting hmachine hnext
      rw [writes_of_awaiting hawaiting] at hpart
      rw [cycle_of_awaiting traced hawaiting]
      exact touches_resume x (by simp) (by simp) traced machine part hpart
  | some i =>
      simp only [writes_of_next? hnext, List.mem_cons, not_or] at hpart
      obtain ⟨hpc, hopcode, hpart⟩ := hpart
      rw [(cycle_of_next? hmachine.memory traced hnext).1]
      refine (same_fetched hpc hopcode).trans ?_
      exact touches_execute _ traced machine.fetched part (by simp [not_mem_steers hpc, hpart])

/-- What none of some cycles may write stays as it is, also if one of them fails. -/
theorem same_cycles (hmachine : machine.Whole) {part : Part} {count : Nat}
    (hparts : ∀ start ∈ machine.cycleStarts traced count, part ∉ start.writes) :
    part.Same machine (cycles count traced machine).state := by
  induction count generalizing machine with
  | zero => exact part.same_refl machine
  | succ count ih =>
      have hfirst := same_cycle hmachine traced (hparts machine (by simp [cycleStarts]))
      cases hresult : (cycle traced machine).result with
      | error fault =>
          rw [cycles, Step.bind_of_error hresult]
          exact hfirst
      | ok done =>
          have hrest : ∀ start ∈ (cycle traced machine).state.cycleStarts traced count,
              part ∉ start.writes := by
            intro start hstart
            exact hparts start (by simp [cycleStarts, hresult, hstart])
          rw [cycles, Step.bind_of_ok hresult]
          exact hfirst.trans (ih (keepsWhole_cycle traced machine hmachine) hrest)

/-! ### What is written -/

theorem overwritten_stored {memory : Memory} (hmemory : memory.Whole) {address : Int}
    {values : List Nat} (hbytes : ∀ value ∈ values, value ≤ 0xFF)
    (hlength : values.length ≤ memorySize) :
    memory.Overwritten (memory.stored address (values.map Nat.cast)) address values where
  written := by
    intro k hk
    have hplace : (address + k) % 0x1000 ≡ address + k [ZMOD 0x1000] := Int.mod_modEq _ _
    have hlength' : (values.map (Nat.cast : Nat → Int)).length ≤ memorySize := by simpa
    have hk' : k < (values.map (Nat.cast : Nat → Int)).length := by simpa using hk
    have hstored : ((memory.stored address (values.map Nat.cast)).get (address + k)).toNat
        = (values.map (Nat.cast : Nat → Int))[k] % 0x100 :=
      Memory.get_stored_within hmemory hlength' hk'
    have hbyte := hbytes values[k] (List.getElem_mem hk)
    rw [List.getElem_map] at hstored
    rw [Memory.get_congr hplace]
    omega
  kept := by
    intro other hother
    apply Memory.get_stored_beside
    intro k hk hsame
    exact hother k (by simpa using hk) hsame.symm

theorem memory_of_storeDecimal (hmachine : machine.Whole) (traced : Bool)
    (hop : i.operation = .storeDecimal) :
    let value := machine.registers.get i.x
    (execute i traced machine).state.memory =
      machine.memory.stored machine.index
        ([value / 100, value / 10 % 10, value % 10].map Nat.cast) := by
  intro value
  have hwrite := Memory.writeFrom_eq machine.index traced hmachine.memory
    ([value / 100, value / 10 % 10, value % 10].map Nat.cast)
  simp only [execute, Step.get_bind, hop, value_bind hmachine.registers]
  exact congrArg Outcome.state hwrite

theorem memory_of_storeRegisters (hmachine : machine.Whole) (traced : Bool)
    (hop : i.operation = .storeRegisters) :
    (execute i traced machine).state.memory =
      machine.memory.stored machine.index
        ((machine.registers.first (i.x + 1)).map Nat.cast) := by
  have hwrite := Memory.writeFrom_eq machine.index traced hmachine.memory
    ((machine.registers.first (i.x + 1)).map Nat.cast)
  simp only [execute, Step.get_bind, hop, storeRegisters_eq hmachine.registers]
  exact congrArg Outcome.state hwrite

theorem random_mem_writes_iff : .random ∈ i.writes ↔ i.operation = .random := by
  unfold Instruction.writes
  cases i.operation <;> simp [-List.map_take]

/-- One random byte is drawn by the operation that is named for it, and none by any other. -/
theorem random_execute (traced : Bool) :
    (execute i traced machine).state.random =
      { machine.random with
        drawn := machine.random.drawn + if i.operation = .random then 1 else 0 } := by
  by_cases hop : i.operation = .random
  · simp only [execute, Step.get_bind, hop, if_true]
    rfl
  · have hsame := touches_execute i traced machine .random
      (by simp [not_mem_steers, random_mem_writes_iff, hop])
    rw [if_neg hop]
    exact hsame

/-- What a cycle may do to a machine, part by part. -/
structure KeepsFootprint (machine after : Machine) (result : Except Fault Unit) : Prop where
  spares : ∀ part ∉ machine.writes, part.Same machine after
  fails : ∀ fault, result = .error fault → after = machine.fetched
  idles : machine.awaiting = none → Operation.Unassigned machine.nextOpcode →
    after = machine.fetched
  decimal : ∀ x : Fin 16, machine.Executes (0xF033 + 0x100 * x) →
    ∃ hundreds tens ones, hundreds ≤ 9 ∧ tens ≤ 9 ∧ ones ≤ 9 ∧
      100 * hundreds + 10 * tens + ones = machine.registers.get x ∧
      machine.memory.Overwritten after.memory machine.index [hundreds, tens, ones]
  block : ∀ x : Fin 16, machine.Executes (0xF055 + 0x100 * x) →
    machine.memory.Overwritten after.memory machine.index
      (((List.finRange 16).take (x + 1)).map machine.registers.get)
  draws : after.random =
    { machine.random with
      drawn := machine.random.drawn +
        if machine.awaiting = none ∧ machine.nextOpcode / 0x1000 = 0xC then 1 else 0 }

theorem keepsFootprint_cycle (traced : Bool) (hmachine : machine.WellFormed) :
    machine.KeepsFootprint (cycle traced machine).state (cycle traced machine).result where
  spares := fun part hpart => same_cycle hmachine.toWhole traced hpart
  fails := by
    intro fault hfault
    have hturn := cycle_turn traced hmachine
    rw [hfault] at hturn
    exact hturn.eq_fetched
  idles := by
    intro hawaiting hword
    have hnext := next?_of_awaiting_eq_none hawaiting
    have hop := operation_of_next? hnext
    rw [(Operation.ofWord_eq_unknown_iff (nextOpcode_lt machine)).mpr hword] at hop
    rw [(cycle_of_next? hmachine.memory traced hnext).1]
    simp only [execute, Step.get_bind, hop, Step.note_apply]
  decimal := by
    intro x hword
    obtain ⟨hop, hx, -⟩ := Instruction.decode_low (by decide : 0 < 0xF ∧ 0xF < 0x10)
      (by decide : 0x33 < 0x100)
      (by omega : 0xF033 + 0x100 * x.val = 0x1000 * 0xF + 0x100 * x + 0x33)
    have hvalue := machine.registers.get_le x
    let value := machine.registers.get x
    refine ⟨value / 100, value / 10 % 10, value % 10, ?_, ?_, ?_, ?_, ?_⟩
    · omega
    · omega
    · omega
    · omega
    · rw [(cycle_of_next? hmachine.memory traced hword.next?).1,
        memory_of_storeDecimal (whole_fetched hmachine.toWhole) traced hop, hx]
      refine overwritten_stored hmachine.memory ?_ ?_
      · intro digit hdigit
        simp only [fetched, List.mem_cons, List.not_mem_nil, or_false] at hdigit
        omega
      · simp [memorySize]
  block := by
    intro x hword
    obtain ⟨hop, hx, -⟩ := Instruction.decode_low (by decide : 0 < 0xF ∧ 0xF < 0x10)
      (by decide : 0x55 < 0x100)
      (by omega : 0xF055 + 0x100 * x.val = 0x1000 * 0xF + 0x100 * x + 0x55)
    rw [(cycle_of_next? hmachine.memory traced hword.next?).1,
      memory_of_storeRegisters (whole_fetched hmachine.toWhole) traced hop, hx]
    refine overwritten_stored hmachine.memory ?_ ?_
    · intro value hvalue
      obtain ⟨y, -, rfl⟩ := List.mem_map.mp hvalue
      exact machine.registers.get_le y
    · rw [Registers.length_first x.isLt, memorySize]
      omega
  draws := by
    cases hnext : machine.next? with
    | some i =>
        have hdraws : i.operation = .random ↔
            machine.awaiting = none ∧ machine.nextOpcode / 0x1000 = 0xC := by
          rw [operation_of_next? hnext, Operation.ofWord_eq_random_iff]
          simp [awaiting_of_next? hnext]
        rw [(cycle_of_next? hmachine.memory traced hnext).1, random_execute traced]
        simp only [hdraws, fetched]
    | none =>
        obtain ⟨x, hawaiting⟩ := exists_awaiting hmachine.toWhole hnext
        have hsame : Part.random.Same machine (cycle traced machine).state :=
          same_cycle hmachine.toWhole traced (by simp [writes_of_awaiting hawaiting])
        rw [hawaiting]
        exact hsame

/-- From any state that can be reached, a cycle writes what its instruction is listed with, and
nothing else. -/
theorem cycle_footprint (traced : Bool) (capacity : Int) (random : RandomBytes)
    (commands : List Command) :
    let machine := (powerOn capacity random).after traced commands
    machine.KeepsFootprint (cycle traced machine).state (cycle traced machine).result := by
  intro machine
  have hmachine : machine.Sound capacity := sound_after traced commands (sound_powerOn _ _)
  exact keepsFootprint_cycle traced hmachine.1

end Machine

end ChipEight
