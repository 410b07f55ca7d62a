import ChipEight.Proofs.Footprint

/-!
Where a cycle leads the program counter. Fetching moves it past the instruction; jumps, calls and
returns then put it at their target, and a skip moves it past one more instruction if its test says
so. Skips come in pairs with one test: of such a pair exactly one skips, and otherwise the two do
the same.
-/

namespace ChipEight

/-! ### Skips -/

/-- What a skip looks at: a register and a byte, two registers, or a register and the key that it
names. -/
inductive SkipTest where
  | byte (x : Fin 16) (nn : Fin 256)
  | same (x y : Fin 16)
  | key (x : Fin 16)

namespace SkipTest

def Holds (test : SkipTest) (machine : Machine) : Prop :=
  match test with
  | byte x nn => machine.registers.get x = nn
  | same x y => machine.registers.get x = machine.registers.get y
  | key x => machine.keypad.Holds (machine.registers.get x)

instance (test : SkipTest) (machine : Machine) : Decidable (test.Holds machine) :=
  match test with
  | byte x nn => inferInstanceAs (Decidable (machine.registers.get x = nn))
  | same x y => inferInstanceAs (Decidable (machine.registers.get x = machine.registers.get y))
  | key x => inferInstanceAs (Decidable (machine.keypad.Holds (machine.registers.get x)))

/-- The word that skips if the test holds: `3XNN`, `5XY0` or `EX9E`. -/
def wordIf : SkipTest → Nat
  | byte x nn => 0x3000 + 0x100 * x + nn
  | same x y => 0x5000 + 0x100 * x + 0x10 * y
  | key x => 0xE09E + 0x100 * x

/-- The word that skips unless the test holds: `4XNN`, `9XY0` or `EXA1`. -/
def wordUnless : SkipTest → Nat
  | byte x nn => 0x4000 + 0x100 * x + nn
  | same x y => 0x9000 + 0x100 * x + 0x10 * y
  | key x => 0xE0A1 + 0x100 * x

end SkipTest

namespace Machine

/-- The machine with its program counter moved past one instruction. -/
def skipped (machine : Machine) : Machine :=
  { machine with pc := (machine.pc + 2) % 0x10000 }

/-- Where a cycle of a machine that does not wait leads the program counter. -/
structure FlowsFrom (machine : Machine) (outcome : Outcome Machine Unit) : Prop where
  jumps : machine.nextOpcode / 0x1000 = 0x1 →
    outcome.state.pc = (machine.nextOpcode % 0x1000 : Nat)
  calls : machine.nextOpcode / 0x1000 = 0x2 → outcome.result = .ok () →
    outcome.state.pc = (machine.nextOpcode % 0x1000 : Nat)
  /-- The sum is small enough to need no cutting. -/
  jumpsWithOffset : machine.nextOpcode / 0x1000 = 0xB →
    outcome.state.pc = (machine.registers.get offsetRegister + machine.nextOpcode % 0x1000 : Nat)
  returns : machine.nextOpcode = 0x00EE → outcome.result = .ok () →
    machine.stack.live.getLast? = some outcome.state.pc
  skipsIf : ∀ test : SkipTest, machine.nextOpcode = test.wordIf →
    outcome.state.pc = (machine.pc + if test.Holds machine then 4 else 2) % 0x10000
  skipsUnless : ∀ test : SkipTest, machine.nextOpcode = test.wordUnless →
    outcome.state.pc = (machine.pc + if test.Holds machine then 2 else 4) % 0x10000
  goesOn : machine.nextOpcode / 0x1000 ∉ [0x1, 0x2, 0xB] → machine.nextOpcode ≠ 0x00EE →
    (∀ test : SkipTest, machine.nextOpcode ≠ test.wordIf ∧ machine.nextOpcode ≠ test.wordUnless) →
    outcome.state.pc = (machine.pc + 2) % 0x10000
  fails : ∀ fault, outcome.result = .error fault →
    outcome.state.pc = (machine.pc + 2) % 0x10000

/-- Of two outcomes from a machine exactly one is a skip, and otherwise they are the same. -/
structure OneSkips (machine : Machine) (outcome outcome' : Outcome Machine Unit) : Prop where
  succeed : outcome.result = .ok () ∧ outcome'.result = .ok ()
  exactlyOne : Xor (outcome.state = machine.skipped) (outcome'.state = machine.skipped)
  skipsOrStays :
    (outcome.state = machine.skipped ∨ outcome.state = machine) ∧
      (outcome'.state = machine.skipped ∨ outcome'.state = machine)
  alike : outcome'.state = { outcome.state with pc := outcome'.state.pc }

variable {machine : Machine} {traced : Bool} {i : Instruction} {word : Nat}

/-! ### Executing a skip -/

theorem skipIf_eq_skipped (condition traced : Bool) :
    skipIf condition traced machine =
      ⟨if condition then machine.skipped else machine, [], .ok ()⟩ := by
  cases condition with
  | false => rfl
  | true =>
      have hpc : (Bits.mask (machine.pc + 2) wordMask : Int) = (machine.pc + 2) % 0x10000 :=
        Bits.mask_wordMask _
      simp [skipIf, advance, skipped, hpc]

theorem execute_wordIf (hmachine : machine.Whole) (test : SkipTest) (traced : Bool) :
    execute (.decode test.wordIf) traced machine =
      skipIf (decide (test.Holds machine)) traced machine := by
  cases test with
  | byte x nn =>
      have hword : SkipTest.wordIf (.byte x nn) = 0x1000 * 0x3 + 0x100 * x + nn := rfl
      obtain ⟨hop, hx, hnn⟩ := Instruction.decode_low (by decide) nn.isLt hword
      have hfamily : (0x1000 * 0x3 + nn.val) / 0x1000 = 0x3 := by omega
      simp only [Operation.ofWord, hfamily] at hop
      simp only [execute, Step.get_bind, hop, hx, hnn, value_bind hmachine.registers]
      rfl
  | same x y =>
      have hword : SkipTest.wordIf (.same x y) = 0x1000 * 0x5 + 0x100 * x + 0x10 * y + 0 := rfl
      obtain ⟨hop, hx, hy⟩ := Instruction.decode_outer (by decide) (by decide) hword
      have hskip : Operation.ofWord (0x1000 * 0x5 + 0) = .skipIfSame := rfl
      simp only [execute, Step.get_bind, hop, hskip, hx, hy, value_bind hmachine.registers]
      rfl
  | key x =>
      have hword : SkipTest.wordIf (.key x) = 0x1000 * 0xE + 0x100 * x + 0x9E := by
        simp only [SkipTest.wordIf]
        omega
      obtain ⟨hop, hx, -⟩ := Instruction.decode_low (by decide) (by decide) hword
      have hskip : Operation.ofWord (0x1000 * 0xE + 0x9E) = .skipIfPressed := rfl
      simp only [execute, Step.get_bind, hop, hskip, hx,
        keyDown_bind hmachine.registers hmachine.keypad]
      rfl

theorem execute_wordUnless (hmachine : machine.Whole) (test : SkipTest) (traced : Bool) :
    execute (.decode test.wordUnless) traced machine =
      skipIf (!decide (test.Holds machine)) traced machine := by
  cases test with
  | byte x nn =>
      have hword : SkipTest.wordUnless (.byte x nn) = 0x1000 * 0x4 + 0x100 * x + nn := rfl
      obtain ⟨hop, hx, hnn⟩ := Instruction.decode_low (by decide) nn.isLt hword
      have hfamily : (0x1000 * 0x4 + nn.val) / 0x1000 = 0x4 := by omega
      simp only [Operation.ofWord, hfamily] at hop
      simp only [execute, Step.get_bind, hop, hx, hnn, value_bind hmachine.registers]
      rfl
  | same x y =>
      have hword : SkipTest.wordUnless (.same x y) = 0x1000 * 0x9 + 0x100 * x + 0x10 * y + 0 := rfl
      obtain ⟨hop, hx, hy⟩ := Instruction.decode_outer (by decide) (by decide) hword
      have hskip : Operation.ofWord (0x1000 * 0x9 + 0) = .skipUnlessSame := rfl
      simp only [execute, Step.get_bind, hop, hskip, hx, hy, value_bind hmachine.registers]
      rfl
  | key x =>
      have hword : SkipTest.wordUnless (.key x) = 0x1000 * 0xE + 0x100 * x + 0xA1 := by
        simp only [SkipTest.wordUnless]
        omega
      obtain ⟨hop, hx, -⟩ := Instruction.decode_low (by decide) (by decide) hword
      have hskip : Operation.ofWord (0x1000 * 0xE + 0xA1) = .skipUnlessPressed := rfl
      simp only [execute, Step.get_bind, hop, hskip, hx,
        keyDown_bind hmachine.registers hmachine.keypad]
      rfl

theorem skipped_ne (machine : Machine) : machine.skipped ≠ machine := by
  intro hsame
  have hpc : (machine.pc + 2) % 0x10000 = machine.pc := congrArg Machine.pc hsame
  omega

theorem oneSkips_execute (hmachine : machine.Whole) (traced : Bool) (test : SkipTest) :
    machine.OneSkips (execute (.decode test.wordIf) traced machine)
      (execute (.decode test.wordUnless) traced machine) := by
  have hmoved := machine.skipped_ne
  rw [execute_wordIf hmachine, execute_wordUnless hmachine, skipIf_eq_skipped, skipIf_eq_skipped]
  by_cases hholds : test.Holds machine
  · simp only [hholds, decide_true, Bool.not_true, if_true, Bool.false_eq_true, if_false]
    exact ⟨⟨rfl, rfl⟩, .inl ⟨rfl, hmoved.symm⟩, ⟨.inl rfl, .inr rfl⟩, rfl⟩
  · simp only [hholds, decide_false, Bool.not_false, if_true, Bool.false_eq_true, if_false]
    exact ⟨⟨rfl, rfl⟩, .inr ⟨rfl, hmoved.symm⟩, ⟨.inr rfl, .inl rfl⟩, rfl⟩

/-! ### Everything else -/

theorem pc_not_mem_writes : .pc ∉ i.writes := by
  unfold Instruction.writes
  cases i.operation <;> simp [-List.map_take]

theorem pc_execute_of_steers (traced : Bool) (hsteers : i.steers = []) :
    (execute i traced machine).state.pc = machine.pc := by
  have hsame : Part.pc.Same machine (execute i traced machine).state :=
    touches_execute i traced machine .pc (by simp [hsteers, pc_not_mem_writes])
  exact hsame

/-- Every word that steers is a jump, a call, the return or a skip. -/
theorem steers_decode (hword : word < 0x10000) (hfamily : word / 0x1000 ∉ [0x1, 0x2, 0xB])
    (hreturn : word ≠ 0x00EE)
    (hskips : ∀ test : SkipTest, word ≠ test.wordIf ∧ word ≠ test.wordUnless) :
    (Instruction.decode word).steers = [] := by
  have hop : (Instruction.decode word).operation = .ofWord word :=
    Operation.ofOpcode_eq_ofWord hword
  obtain ⟨x, hx⟩ : ∃ x : Fin 16, x.val = word / 0x100 % 0x10 := ⟨⟨_, Nat.mod_lt _ (by decide)⟩, rfl⟩
  obtain ⟨y, hy⟩ : ∃ y : Fin 16, y.val = word / 0x10 % 0x10 := ⟨⟨_, Nat.mod_lt _ (by decide)⟩, rfl⟩
  obtain ⟨nn, hnn⟩ : ∃ nn : Fin 256, nn.val = word % 0x100 := ⟨⟨_, Nat.mod_lt _ (by decide)⟩, rfl⟩
  -- A skip with these operands would be the word itself.
  have hbyte := hskips (.byte x nn)
  have hsame := hskips (.same x y)
  have hkey := hskips (.key x)
  simp only [SkipTest.wordIf, SkipTest.wordUnless] at hbyte hsame hkey
  simp only [Instruction.steers, hop]
  fun_cases Operation.ofWord word
  all_goals try rfl
  all_goals simp_all
  all_goals omega

theorem Transition.pc_of_call {after : Machine} (h : Transition i machine after (.ok ()))
    (hop : i.operation = .call) : after.pc = i.nnn := by
  cases h <;> simp_all

theorem Transition.pc_of_return {after : Machine} (h : Transition i machine after (.ok ()))
    (hop : i.operation = .returnFromCall) : machine.stack.live.getLast? = some after.pc := by
  cases h <;> simp_all

/-! ### Cycles -/

theorem pc_fetched (machine : Machine) : machine.fetched.pc = (machine.pc + 2) % 0x10000 :=
  Bits.mask_wordMask _

theorem nnn_decode (word : Nat) : (Instruction.decode word).nnn = word % 0x1000 := by
  obtain ⟨-, -, -, -, hnnn⟩ := Instruction.fields_decode word
  omega

theorem pc_cycle_of_jump (hmachine : machine.Whole) (traced : Bool) (hnext : machine.next? = some i)
    (hop : i.operation = .jump) : (cycle traced machine).state.pc = i.nnn := by
  rw [(cycle_of_next? hmachine.memory traced hnext).1]
  simp only [execute, Step.get_bind, hop]
  rfl

theorem pc_cycle_of_jumpWithOffset (hmachine : machine.Whole) (traced : Bool)
    (hnext : machine.next? = some i) (hop : i.operation = .jumpWithOffset) :
    (cycle traced machine).state.pc = (machine.registers.get offsetRegister + i.nnn : Nat) := by
  have hoffset := machine.registers.get_le offsetRegister
  have hnnn := (inRange_of_next? hnext).nnn_le
  have hmask := Bits.mask_wordMask (machine.registers.get offsetRegister + i.nnn)
  have hpc : (cycle traced machine).state.pc
      = Bits.mask (machine.registers.get offsetRegister + i.nnn) wordMask := by
    rw [(cycle_of_next? hmachine.memory traced hnext).1]
    simp only [execute, Step.get_bind, hop, value_bind (whole_fetched hmachine).registers]
    rfl
  omega

theorem pc_cycle_of_skip (hmachine : machine.Whole) (traced : Bool) {condition : Bool}
    (hnext : machine.next? = some i)
    (hskip : execute i traced machine.fetched = skipIf condition traced machine.fetched) :
    (cycle traced machine).state.pc = (machine.pc + if condition then 4 else 2) % 0x10000 := by
  have hpc := machine.pc_fetched
  rw [(cycle_of_next? hmachine.memory traced hnext).1, hskip, skipIf_eq_skipped]
  cases condition with
  | false => exact hpc
  | true =>
      simp only [skipped, if_true]
      omega

theorem holds_fetched (test : SkipTest) : test.Holds machine.fetched ↔ test.Holds machine := by
  cases test <;> rfl

theorem flowsFrom_cycle (traced : Bool) (hmachine : machine.WellFormed)
    (hawaiting : machine.awaiting = none) : machine.FlowsFrom (cycle traced machine) := by
  have hnext := next?_of_awaiting_eq_none hawaiting
  have hop := operation_of_next? hnext
  have hnnn := nnn_decode machine.nextOpcode
  obtain ⟨hstate, hresult⟩ := cycle_of_next? hmachine.memory traced hnext
  have htransition :=
    execute_transition traced (wellFormed_fetched hmachine) (inRange_of_next? hnext)
  rw [← hstate, ← hresult] at htransition
  exact
    { jumps := by
        intro hfamily
        simp only [Operation.ofWord, hfamily] at hop
        rw [pc_cycle_of_jump hmachine.toWhole traced hnext hop, hnnn]
      calls := by
        intro hfamily hok
        rw [hok] at htransition
        rw [htransition.pc_of_call (hop.trans (Operation.ofWord_eq_call_iff.mpr hfamily)), hnnn]
      jumpsWithOffset := by
        intro hfamily
        simp only [Operation.ofWord, hfamily] at hop
        rw [pc_cycle_of_jumpWithOffset hmachine.toWhole traced hnext hop, hnnn]
      returns := by
        intro hword hok
        rw [hok] at htransition
        exact htransition.pc_of_return
          (hop.trans (Operation.ofWord_eq_returnFromCall_iff.mpr hword))
      skipsIf := by
        intro test hword
        rw [hword] at hnext
        rw [pc_cycle_of_skip hmachine.toWhole traced hnext
          (execute_wordIf (whole_fetched hmachine.toWhole) test traced)]
        simp [holds_fetched]
      skipsUnless := by
        intro test hword
        rw [hword] at hnext
        rw [pc_cycle_of_skip hmachine.toWhole traced hnext
          (execute_wordUnless (whole_fetched hmachine.toWhole) test traced)]
        simp [holds_fetched]
      goesOn := by
        intro hfamily hreturn hskips
        have hsteers := steers_decode (nextOpcode_lt machine) hfamily hreturn hskips
        rw [hstate, pc_execute_of_steers traced hsteers, pc_fetched]
      fails := by
        intro fault hfault
        have hturn := cycle_turn traced hmachine
        rw [hfault] at hturn
        rw [hturn.eq_fetched, pc_fetched] }

/-- From any state that can be reached, a cycle that fetches leads the program counter where its
instruction says; and of two skips with one test, whatever state they find, exactly one skips and
nothing else comes of either. -/
theorem control_flow (traced : Bool) (capacity : Int) (random : RandomBytes)
    (commands : List Command) :
    let machine := (powerOn capacity random).after traced commands
    (machine.awaiting = none → machine.FlowsFrom (cycle traced machine)) ∧
      ∀ start : Machine, start.Whole → ∀ test : SkipTest,
        start.OneSkips (execute (.decode test.wordIf) traced start)
          (execute (.decode test.wordUnless) traced start) := by
  intro machine
  have hmachine : machine.Sound capacity := sound_after traced commands (sound_powerOn _ _)
  exact ⟨flowsFrom_cycle traced hmachine.1, fun _ hstart => oneSkips_execute hstart traced⟩

/-- A program that puts 200, which names no key, into V0 and skips unless the key in V0 is down. -/
theorem executes_keyless {start : Machine} (hstart : start.Whole)
    (hmemory : start.memory = Memory.initial.install #[0x60, 0xC8, 0xE0, 0xA1])
    (hpc : start.pc = programStart) (hawaiting : start.awaiting = none) :
    (start.after false [.cycle]).Executes (SkipTest.wordUnless (.key 0)) ∧
      (start.after false [.cycle]).pc = 0x202 ∧
      (start.after false [.cycle]).registers.get 0 = 200 := by
  have hpc' : start.pc = (programStart + 0 : Nat) := hpc
  have hword : start.Executes 0x60C8 :=
    ⟨hawaiting, nextOpcode_of_install Memory.whole_initial hmemory hpc' (by decide) rfl rfl⟩
  exact executes_behind_loadByte hstart 0 (by decide : 0xC8 < 0x100) hword Memory.whole_initial
    hmemory hpc (by decide) rfl rfl

theorem control_flow_keyless :
    let commands := [.load [0x60, 0xC8, 0xE0, 0xA1], .cycle]
    ((powerOn 16 (.cycling #[])).after false commands).awaiting = none ∧
      ((powerOn 16 (.cycling #[])).after false commands).pc = 0x202 ∧
      (cycle false ((powerOn 16 (.cycling #[])).after false commands)).state.pc = 0x206 := by
  intro commands
  have hready := @executes_keyless
    ((powerOn 16 (.cycling #[])).after false [.load [0x60, 0xC8, 0xE0, 0xA1]])
    (whole_after _ _ _ _) rfl rfl rfl
  have hafter : (powerOn 16 (.cycling #[])).after false commands = _ :=
    after_append (powerOn 16 (.cycling #[])) false [.load [0x60, 0xC8, 0xE0, 0xA1]] [.cycle]
  rw [← hafter] at hready
  obtain ⟨hword, hpc, hregister⟩ := hready
  obtain ⟨hflow, -⟩ := control_flow false 16 (.cycling #[]) commands
  have hskip := (hflow hword.1).skipsUnless (.key 0) hword.2
  have hkeyless : ¬SkipTest.Holds (.key 0) ((powerOn 16 (.cycling #[])).after false commands) := by
    rintro ⟨key, hkey, -⟩
    rw [hregister] at hkey
    omega
  rw [if_neg hkeyless, hpc] at hskip
  exact ⟨hword.1, hpc, hskip⟩

end Machine

end ChipEight
