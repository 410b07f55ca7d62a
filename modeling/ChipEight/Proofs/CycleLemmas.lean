import ChipEight.Proofs.OpcodeDigits
import ChipEight.Proofs.Transition

/-!
What a cycle can do to a well-formed machine. A cycle either executes the instruction that the
program counter points at, which is one of the transitions from the machine as fetching leaves it,
or polls the keypad.
-/

namespace ChipEight.Machine

/-- The word that the program counter points at. -/
def nextOpcode (machine : Machine) : Nat :=
  (machine.memory.get machine.pc).toNat <<< 8 ||| (machine.memory.get (machine.pc + 1)).toNat

/-- The instruction that the next cycle executes; none while the machine waits for a key. -/
def next? (machine : Machine) : Option Instruction :=
  match machine.awaiting with
  | none => some (.decode machine.nextOpcode)
  | some _ => none

def fetched (machine : Machine) : Machine :=
  { machine with opcode := machine.nextOpcode, pc := Bits.mask (machine.pc + 2) wordMask }

/-- The next cycle executes a word. -/
def Executes (machine : Machine) (word : Nat) : Prop :=
  machine.awaiting = none ∧ machine.nextOpcode = word

variable {machine : Machine} {traced : Bool} {i : Instruction} {word : Nat}

theorem next?_of_awaiting_eq_none (hawaiting : machine.awaiting = none) :
    machine.next? = some (.decode machine.nextOpcode) := by
  rw [next?, hawaiting]

theorem nextOpcode_of_install {memory : Memory} {program : Array UInt8} {high low : UInt8} {k : Nat}
    (hwhole : memory.Whole) (hmemory : machine.memory = memory.install program)
    (hpc : machine.pc = (programStart + k : Nat)) (hsize : program.size ≤ programLimit)
    (hhigh : program[k]? = some high) (hlow : program[k + 1]? = some low) :
    machine.nextOpcode = high.toNat <<< 8 ||| low.toNat := by
  obtain ⟨hfirst, rfl⟩ := Array.getElem?_eq_some_iff.mp hhigh
  obtain ⟨hsecond, rfl⟩ := Array.getElem?_eq_some_iff.mp hlow
  have hget : machine.memory.get machine.pc = program[k] := by
    rw [hmemory, hpc]
    exact Memory.get_install hwhole hfirst hsize
  have hget' : machine.memory.get (machine.pc + 1) = program[k + 1] := by
    rw [hmemory, hpc]
    exact Memory.get_install hwhole hsecond hsize
  rw [nextOpcode, hget, hget']

theorem next?_of_install {memory : Memory} {program : Array UInt8} {high low : UInt8}
    (hwhole : memory.Whole) (hmemory : machine.memory = memory.install program)
    (hpc : machine.pc = programStart) (hawaiting : machine.awaiting = none)
    (hsize : program.size ≤ programLimit) (hhigh : program[0]? = some high)
    (hlow : program[1]? = some low) :
    machine.next? = some (.decode (high.toNat <<< 8 ||| low.toNat : Nat)) := by
  rw [next?_of_awaiting_eq_none hawaiting,
    nextOpcode_of_install hwhole hmemory hpc hsize hhigh hlow]

theorem isWord_nextOpcode (machine : Machine) : IsWord machine.nextOpcode := by
  have hhigh := (machine.memory.get machine.pc).toNat_lt
  have hlow := (machine.memory.get (machine.pc + 1)).toNat_lt
  have hshifted : (machine.memory.get machine.pc).toNat <<< 8 < 2 ^ 16 := by
    rw [Nat.shiftLeft_eq]
    omega
  have hword : machine.nextOpcode < 2 ^ 16 := Nat.or_lt_two_pow hshifted (by omega)
  omega

theorem nextOpcode_lt (machine : Machine) : machine.nextOpcode < 0x10000 := by
  have hword := isWord_nextOpcode machine
  omega

theorem eq_decode_of_next? (hnext : machine.next? = some i) : i = .decode machine.nextOpcode := by
  unfold next? at hnext
  split at hnext
  · exact (Option.some.inj hnext).symm
  · cases hnext

theorem inRange_of_next? (hnext : machine.next? = some i) : i.InRange := by
  rw [eq_decode_of_next? hnext]
  exact Instruction.inRange_decode _

theorem operation_of_next? (hnext : machine.next? = some i) :
    i.operation = .ofWord machine.nextOpcode := by
  rw [eq_decode_of_next? hnext]
  exact Operation.ofOpcode_eq_ofWord (nextOpcode_lt machine)

theorem Executes.next? (hword : machine.Executes word) : machine.next? = some (.decode word) := by
  rw [next?_of_awaiting_eq_none hword.1, hword.2]

theorem Executes.operation_decode (hword : machine.Executes word) :
    (Instruction.decode word).operation = .ofWord word :=
  Operation.ofOpcode_eq_ofWord (hword.2 ▸ nextOpcode_lt machine)

theorem fetched_eq (machine : Machine) :
    machine.fetched =
      { machine with opcode := machine.nextOpcode, pc := (machine.pc + 2) % 0x10000 } := by
  rw [fetched, Bits.mask_wordMask]

theorem whole_fetched (hmachine : machine.Whole) : machine.fetched.Whole :=
  { hmachine with }

theorem wellFormed_fetched (hmachine : machine.WellFormed) : machine.fetched.WellFormed :=
  { hmachine with pc := Bits.isWord_mask _, opcode := isWord_nextOpcode machine }

theorem fetch_eq (hmemory : machine.memory.Whole) (traced : Bool) :
    fetch traced machine =
      ⟨machine.fetched, if traced then Memory.strays [machine.pc, machine.pc + 1] else [],
        .ok (.decode machine.nextOpcode)⟩ := by
  have hhigh := Memory.read_eq machine.pc traced hmemory
  have hlow := Memory.read_eq (machine.pc + 1) traced hmemory
  rw [Memory.strays_cons]
  simp [fetch, onMemory, hhigh, hlow, advance, fetched, nextOpcode]

/-- A machine that does not wait fetches its next instruction, writes it down and executes it. -/
theorem cycle_eq_of_next? (hmemory : machine.memory.Whole) (traced : Bool)
    (hnext : machine.next? = some i) :
    cycle traced machine =
      ⟨(execute i traced machine.fetched).state,
        (fetch traced machine).notes ++ ((trace i traced machine.fetched).notes ++
          (execute i traced machine.fetched).notes),
        (execute i traced machine.fetched).result⟩ := by
  unfold next? at hnext
  split at hnext
  · rename_i hawaiting
    rw [← Option.some.inj hnext, cycle, Step.bind_of_ok rfl]
    simp only [Step.get_apply, hawaiting]
    rw [Step.bind_of_ok (by rw [fetch_eq hmemory]), fetch_eq hmemory]
    rfl
  · cases hnext

theorem cycle_of_next? (hmemory : machine.memory.Whole) (traced : Bool)
    (hnext : machine.next? = some i) :
    (cycle traced machine).state = (execute i traced machine.fetched).state ∧
      (cycle traced machine).result = (execute i traced machine.fetched).result := by
  rw [cycle_eq_of_next? hmemory traced hnext]
  exact ⟨rfl, rfl⟩

theorem cycle_of_loadByte (hmachine : machine.Whole) (traced : Bool) (x : Fin 16) {nn : Nat}
    (hnn : nn < 0x100) (hword : machine.Executes (0x6000 + 0x100 * x + nn)) :
    (cycle traced machine).state =
        { machine.fetched with registers := machine.registers.written x nn } ∧
      (cycle traced machine).result = .ok () := by
  obtain ⟨hop, hx, hbyte⟩ := Instruction.decode_low (by decide : 0 < 6 ∧ 6 < 0x10) hnn
    (rfl : 0x6000 + 0x100 * x + nn = 0x1000 * 6 + 0x100 * x + nn)
  have hfamily : (0x1000 * 6 + nn) / 0x1000 = 6 := by omega
  simp only [Operation.ofWord, hfamily] at hop
  obtain ⟨hstate, hresult⟩ := cycle_of_next? hmachine.memory traced hword.next?
  rw [hstate, hresult]
  simp only [execute, Step.get_bind, hop, hx, hbyte]
  rw [put_eq (whole_fetched hmachine).registers x (isByte_natCast (by omega))]
  exact ⟨rfl, rfl⟩

/-- Behind an instruction that neither writes to the memory nor jumps nor waits stands the next word
of the program. -/
theorem executes_behind {memory : Memory} {program : Array UInt8} {high low : UInt8} (k : Nat)
    (later : Machine) (hwhole : memory.Whole) (hmemory : machine.memory = memory.install program)
    (hpc : machine.pc = (programStart + k : Nat)) (hsize : program.size ≤ programLimit)
    (hhigh : program[k + 2]? = some high) (hlow : program[k + 3]? = some low)
    (hkept : later.memory = machine.memory) (hpassed : later.pc = machine.fetched.pc)
    (hawaiting : later.awaiting = none) :
    later.Executes (high.toNat <<< 8 ||| low.toNat) ∧
      later.pc = (programStart + (k + 2) : Nat) := by
  obtain ⟨hinside, -⟩ := Array.getElem?_eq_some_iff.mp hhigh
  have hpc' : later.pc = (programStart + (k + 2) : Nat) := by
    rw [hpassed, fetched_eq, hpc]
    simp only [programLimit, memorySize, programStart] at hsize ⊢
    omega
  have hword := nextOpcode_of_install hwhole (hkept.trans hmemory) hpc' hsize hhigh hlow
  exact ⟨⟨hawaiting, hword⟩, hpc'⟩

theorem cycle_of_awaiting {register : Int} (traced : Bool)
    (hawaiting : machine.awaiting = some register) :
    cycle traced machine = resume register traced machine := by
  rw [cycle, Step.get_bind]
  simp only [hawaiting]

theorem resume_of_none (hkeypad : machine.keypad.Whole) (register : Int) (traced : Bool)
    (hkey : machine.keypad.lowest = none) :
    resume register traced machine = ⟨machine, [], .ok ()⟩ := by
  rw [resume, Step.get_bind]
  simp [Keypad.first_eq hkeypad, hkey]

theorem resume_of_some {key : Fin 16} (hmachine : machine.Whole) (x : Fin 16) (traced : Bool)
    (hkey : machine.keypad.lowest = some key) :
    resume x.val traced machine =
      ⟨{ machine with registers := machine.registers.written x key.val, awaiting := none }, [],
        .ok ()⟩ := by
  have hbyte : IsByte key.val := isByte_natCast (by omega)
  rw [resume, Step.get_bind]
  simp [Keypad.first_eq hmachine.keypad, hkey, put_eq hmachine.registers x hbyte]

theorem awaiting_of_next? (hnext : machine.next? = some i) : machine.awaiting = none := by
  unfold next? at hnext
  split at hnext
  · assumption
  · cases hnext

theorem awaiting_of_next?_eq_none (hnext : machine.next? = none) :
    ∃ register, machine.awaiting = some register := by
  unfold next? at hnext
  split at hnext
  · cases hnext
  · exact ⟨_, ‹_›⟩

/-- What a whole machine waits to put a key into is one of its registers. -/
theorem exists_awaiting (hmachine : machine.Whole) (hnext : machine.next? = none) :
    ∃ x : Fin 16, machine.awaiting = some (x.val : Int) := by
  obtain ⟨register, hawaiting⟩ := awaiting_of_next?_eq_none hnext
  obtain ⟨x, rfl⟩ := hmachine.awaiting register hawaiting
  exact ⟨x, hawaiting⟩

inductive Turn (machine : Machine) : Machine → Except Fault Unit → Prop
  | execute (i : Instruction) {after : Machine} {result : Except Fault Unit}
      (hnext : machine.next? = some i) (hexecute : Transition i machine.fetched after result) :
      Turn machine after result
  | poll (hnext : machine.next? = none) : Turn machine machine (.ok ())
  | resume (registers : Registers) (hnext : machine.next? = none)
      (hregisters : registers.Whole) :
      Turn machine { machine with registers := registers, awaiting := none } (.ok ())

theorem cycle_turn (traced : Bool) (hmachine : machine.WellFormed) :
    Turn machine (cycle traced machine).state (cycle traced machine).result := by
  cases hnext : machine.next? with
  | some i =>
      obtain ⟨hstate, hresult⟩ := cycle_of_next? hmachine.memory traced hnext
      rw [hstate, hresult]
      exact .execute i hnext
        (execute_transition traced (wellFormed_fetched hmachine) (inRange_of_next? hnext))
  | none =>
      obtain ⟨x, hawaiting⟩ := exists_awaiting hmachine.toWhole hnext
      rw [cycle_of_awaiting traced hawaiting]
      cases hkey : machine.keypad.lowest with
      | none =>
          rw [resume_of_none hmachine.keypad x traced hkey]
          exact .poll hnext
      | some key =>
          rw [resume_of_some hmachine.toWhole x traced hkey]
          exact .resume _ hnext (Registers.whole_written_iff.mpr hmachine.registers)

/-! ### Frames -/

variable {count : Int}

theorem frame_of_ok (hresult : (cycles count.toNat traced machine).result = .ok ()) :
    let reached := (cycles count.toNat traced machine).state
    (frame count traced machine).state =
        { reached.tick with display := { reached.display with dirty := false } } ∧
      (frame count traced machine).result = .ok reached.display.dirty := by
  rw [frame, Step.bind_of_ok hresult]
  exact ⟨rfl, rfl⟩

theorem frame_of_error {fault : Fault}
    (hresult : (cycles count.toNat traced machine).result = .error fault) :
    (frame count traced machine).state = (cycles count.toNat traced machine).state ∧
      (frame count traced machine).result = .error fault := by
  rw [frame, Step.bind_of_error hresult]
  exact ⟨rfl, rfl⟩

/-! ### What transitions keep -/

theorem Transition.wellFormed {after : Machine} {result : Except Fault Unit}
    (h : Transition i machine after result) (hmachine : machine.WellFormed) (hi : i.InRange) :
    after.WellFormed := by
  have hnnn := hi.nnn_le
  cases h with
  | compute registers pc index timers random hop hregisters hpc hindex htimers =>
      exact { hmachine with
        registers := hregisters
        pc := hpc
        index := hindex
        timers := htimers }
  | store memory hop hmemory => exact { hmachine with memory := hmemory }
  | suspend hop =>
      refine { hmachine with awaiting := fun register hregister => ⟨i.x, ?_⟩ }
      exact (Option.some.inj hregister).symm
  | clear hop => exact { hmachine with display := hmachine.display.clear }
  | draw registers cells hop hregisters hsize hbits =>
      exact { hmachine with
        registers := hregisters
        display := hmachine.display.redrawn true hsize hbits }
  | call hop hroom =>
      exact { hmachine with
        pc := (by omega : IsWord i.nnn)
        stored := CallStack.stored_pushed hmachine.stored hroom
        stack := hmachine.stack.pushed hmachine.stored hmachine.pc hroom }
  | «return» latest hop hlive =>
      have hlatest : IsWord latest :=
        hmachine.stack.live_words latest (by rw [hlive]; simp)
      exact { hmachine with
        pc := hlatest
        stored := CallStack.stored_popped hmachine.stored
        stack := hmachine.stack.popped }
  | overflow hop hfull => exact hmachine
  | underflow hop hempty => exact hmachine

theorem Transition.capacity_eq {after : Machine} {result : Except Fault Unit}
    (h : Transition i machine after result) :
    after.stack.capacity = machine.stack.capacity := by
  cases h <;> rfl

theorem Turn.wellFormed {after : Machine} {result : Except Fault Unit}
    (h : Turn machine after result) (hmachine : machine.WellFormed) : after.WellFormed := by
  cases h with
  | execute i hnext hexecute =>
      exact hexecute.wellFormed (wellFormed_fetched hmachine) (inRange_of_next? hnext)
  | poll hnext => exact hmachine
  | resume registers hnext hregisters =>
      exact { hmachine with
        registers := hregisters
        awaiting := fun _ hregister => nomatch hregister }

theorem Turn.capacity_eq {after : Machine} {result : Except Fault Unit}
    (h : Turn machine after result) : after.stack.capacity = machine.stack.capacity := by
  cases h with
  | execute i hnext hexecute => exact hexecute.capacity_eq
  | poll hnext => rfl
  | resume registers hnext hregisters => rfl

/-- A cycle that fails has misused the call stack. -/
theorem Turn.fault_eq {after : Machine} {fault : Fault} (h : Turn machine after (.error fault)) :
    fault = .stackOverflow machine.stack.capacity ∨ fault = .stackUnderflow := by
  cases h with
  | execute i hnext hexecute =>
      cases hexecute with
      | overflow hop hfull => exact .inl rfl
      | underflow hop hempty => exact .inr rfl

/-- A cycle that fails has only fetched its instruction. -/
theorem Turn.eq_fetched {after : Machine} {fault : Fault} (h : Turn machine after (.error fault)) :
    after = machine.fetched := by
  cases h with
  | execute i hnext hexecute =>
      cases hexecute with
      | overflow hop hfull => rfl
      | underflow hop hempty => rfl

end ChipEight.Machine
