import ChipEight.Proofs.Safety

/-!
When cycles fail. A call on a full stack and a return on an empty one are the only instructions that
fail, and all that is left of one that does is that it was fetched.
-/

namespace ChipEight

theorem Operation.ne_call_of_not_mem {operation : Operation}
    (hop : operation ∉ [.clearScreen, .draw, .call, .returnFromCall]) :
    operation ≠ .call ∧ operation ≠ .returnFromCall := by
  simp only [List.mem_cons, not_or] at hop
  exact ⟨hop.2.2.1, hop.2.2.2.1⟩

namespace Machine

/-- The next cycle executes a call, and every slot of the stack is taken. -/
def CallsOnFullStack (capacity : Int) (machine : Machine) : Prop :=
  machine.awaiting = none ∧ machine.nextOpcode / 0x1000 = 0x2 ∧ capacity ≤ machine.stack.depth

/-- The next cycle executes a return, and there is no active call. -/
def ReturnsOnEmptyStack (machine : Machine) : Prop :=
  machine.awaiting = none ∧ machine.nextOpcode = 0x00EE ∧ machine.stack.depth = 0

instance (capacity : Int) (machine : Machine) : Decidable (machine.CallsOnFullStack capacity) :=
  inferInstanceAs (Decidable (_ ∧ _))

instance (machine : Machine) : Decidable machine.ReturnsOnEmptyStack :=
  inferInstanceAs (Decidable (_ ∧ _))

variable {machine after : Machine} {capacity : Int} {traced : Bool} {i : Instruction}
  {result : Except Fault Unit}

theorem not_calls_and_returns (hcall : machine.CallsOnFullStack capacity) :
    ¬machine.ReturnsOnEmptyStack := by
  rintro ⟨-, hreturn, -⟩
  have hfamily := hcall.2.1
  omega

theorem Transition.result_eq (h : Transition i machine after result) :
    result =
      if i.operation = .call ∧ machine.stack.capacity ≤ machine.stack.depth then
        .error (.stackOverflow machine.stack.capacity)
      else if i.operation = .returnFromCall ∧ machine.stack.depth = 0 then
        .error .stackUnderflow
      else
        .ok () := by
  cases h with
  | compute registers pc index timers random hop hpc hindex htimers =>
      simp [Operation.ne_call_of_not_mem hop]
  | store memory hop => simp [Operation.ne_call_of_not_mem hop]
  | suspend hop | clear hop | draw registers cells hop hsize => simp [hop]
  | call hop hroom => simp [hop, Int.not_le.mpr hroom]
  | «return» latest hop hlive =>
      have hdepth : machine.stack.depth ≠ 0 := by
        intro hempty
        simp [CallStack.live, hempty] at hlive
      simp [hop, hdepth]
  | overflow hop hfull => simp [hop, hfull]
  | underflow hop hempty => simp [hop, hempty]

theorem Turn.result_eq (h : Turn machine after result) :
    result =
      if machine.CallsOnFullStack machine.stack.capacity then
        .error (.stackOverflow machine.stack.capacity)
      else if machine.ReturnsOnEmptyStack then
        .error .stackUnderflow
      else
        .ok () := by
  cases h with
  | execute i hnext hexecute =>
      rw [hexecute.result_eq]
      simp [operation_of_next? hnext, Operation.ofWord_eq_call_iff,
        Operation.ofWord_eq_returnFromCall_iff, CallsOnFullStack, ReturnsOnEmptyStack,
        awaiting_of_next? hnext, fetched]
  | poll hnext | resume registers hnext =>
      obtain ⟨x, hawaiting⟩ := awaiting_of_next?_eq_none hnext
      simp [CallsOnFullStack, ReturnsOnEmptyStack, hawaiting]

theorem Turn.awaiting_of_error {fault : Fault} (h : Turn machine after (.error fault)) :
    machine.awaiting = none := by
  cases h with
  | execute i hnext hexecute => exact awaiting_of_next? hnext

/-- What is fetched next stands behind what was fetched. -/
theorem nextOpcode_fetched (machine : Machine) :
    machine.fetched.nextOpcode = { machine with pc := machine.pc + 2 }.nextOpcode := by
  have hhigh : machine.memory.get machine.fetched.pc = machine.memory.get (machine.pc + 2) :=
    Memory.get_congr (Bits.mask_wordMask_modEq (machine.pc + 2))
  have hlow :
      machine.memory.get (machine.fetched.pc + 1) = machine.memory.get (machine.pc + 2 + 1) :=
    Memory.get_congr ((Bits.mask_wordMask_modEq (machine.pc + 2)).add_right 1)
  simp only [nextOpcode]
  rw [← hhigh, ← hlow]
  rfl

/-- What a cycle comes to on a stack of some capacity. -/
structure FailsOnMisuse (capacity : Int) (machine : Machine) (outcome : Outcome Machine Unit) :
    Prop where
  overflow : outcome.result = .error (.stackOverflow capacity) ↔
    machine.CallsOnFullStack capacity
  underflow : outcome.result = .error .stackUnderflow ↔ machine.ReturnsOnEmptyStack
  succeeds : outcome.result = .ok () ↔
    ¬machine.CallsOnFullStack capacity ∧ ¬machine.ReturnsOnEmptyStack
  /-- A stack without slots never takes a call. -/
  slotless : capacity ≤ 0 → machine.awaiting = none → machine.nextOpcode / 0x1000 = 0x2 →
    outcome.result = .error (.stackOverflow capacity)
  intact : ∀ fault, outcome.result = .error fault →
    outcome.state =
      { machine with opcode := machine.nextOpcode, pc := (machine.pc + 2) % 0x10000 }
  /-- The next cycle executes what stands behind the instruction that failed. -/
  continues : ∀ fault, outcome.result = .error fault →
    outcome.state.next? = some (.decode { machine with pc := machine.pc + 2 }.nextOpcode)

theorem failsOnMisuse_cycle (traced : Bool) (hmachine : machine.Sound capacity) :
    machine.FailsOnMisuse capacity (cycle traced machine) := by
  have hturn := cycle_turn traced hmachine.1
  have hresult := hturn.result_eq
  rw [hmachine.2] at hresult
  have hfailed : ∀ fault, (cycle traced machine).result = .error fault →
      (cycle traced machine).state = machine.fetched ∧ machine.fetched.awaiting = none := by
    intro fault hfault
    rw [hfault] at hturn
    exact ⟨hturn.eq_fetched, hturn.awaiting_of_error⟩
  have hoverflow : (cycle traced machine).result = .error (.stackOverflow capacity) ↔
      machine.CallsOnFullStack capacity := by
    rw [hresult]
    split
    · simpa
    · split <;> simpa
  exact
    { overflow := hoverflow
      underflow := by
        rw [hresult]
        split
        · have := not_calls_and_returns ‹_›
          simpa
        · split <;> simpa
      succeeds := by
        rw [hresult]
        split
        · simp [*]
        · split <;> simp [*]
      slotless := fun hcapacity hawaiting hfamily =>
        hoverflow.mpr ⟨hawaiting, hfamily, by omega⟩
      intact := fun fault hfault => (hfailed fault hfault).1.trans (fetched_eq machine)
      continues := by
        intro fault hfault
        obtain ⟨hstate, hawaiting⟩ := hfailed fault hfault
        rw [hstate, next?_of_awaiting_eq_none hawaiting, nextOpcode_fetched] }

/-- From any state that can be reached, a cycle fails on misuse of the stack and on nothing else,
and then it has only fetched its instruction. -/
theorem cycle_fails_on_misuse (traced : Bool) (capacity : Int) (random : RandomBytes)
    (commands : List Command) :
    let machine := (powerOn capacity random).after traced commands
    machine.FailsOnMisuse capacity (cycle traced machine) := by
  intro machine
  exact failsOnMisuse_cycle traced (sound_after traced commands (sound_powerOn capacity random))

end Machine

end ChipEight
