import ChipEight.Proofs.Assembly
import ChipEight.Proofs.KeyWait
import ChipEight.Proofs.Safety

/-!
The trace as a log of what was executed. A traced cycle writes down the fetches from above the
memory, the instruction with the address that it was fetched from, and the remarks of the
instruction, in the order of the accesses; a cycle of a machine that waits for a key writes nothing.
What a run prints are the lines of its cycles one after the other, whether or not one of them fails.
-/

namespace ChipEight

/-- How many cells from I on an operation with the operands N and X gets at. -/
def Operation.reach (operation : Operation) (n x : Nat) : Nat :=
  match operation with
  | draw => n
  | storeDecimal => 3
  | storeRegisters | loadRegisters => x + 1
  | _ => 0

/-- What executing an instruction has to say: the cells above the memory that it gets at, a word
without an operation, and the register that is left waiting for a key. -/
def Instruction.remarks (i : Instruction) (machine : Machine) : List Note :=
  Memory.strays (Memory.addressesFrom machine.index (i.operation.reach i.n i.x)) ++
    match i.operation with
    | .unknown => [.unknownOpcode i.opcode]
    | .awaitKey => if machine.keypad.AllUp then [.awaitingKey i.x] else []
    | _ => []

namespace Note

theorem line_executing (address : Int) (i : Instruction) :
    (executing address i).line =
      s!"mem_addr: 0x{Hex.padded 4 address}    instruction: {i.assembly}" := rfl

theorem line_unknownOpcode (opcode : Int) :
    (unknownOpcode opcode).line = s!"unknown opcode 0x{Hex.padded 4 opcode} skipped" := rfl

theorem line_awaitingKey (x : Fin 16) :
    (awaitingKey x).line = s!"waiting for a keypress to store in V{x.val}" := rfl

end Note

namespace Machine

def cycleNotes (machine : Machine) : List Note :=
  match machine.next? with
  | some i =>
      Memory.strays [machine.pc, machine.pc + 1] ++ .executing machine.pc i :: i.remarks machine
  | none => []

/-- The line about a word without an operation or about the wait for a key, if there is one. -/
def remarkLines (machine : Machine) (word : Nat) : List String :=
  match Operation.ofWord word with
  | .unknown => [s!"unknown opcode 0x{Hex.padded 4 word} skipped"]
  | .awaitKey =>
      if machine.keypad.AllUp then
        [s!"waiting for a keypress to store in V{word / 0x100 % 0x10}"]
      else []
  | _ => []

/-- The lines of a cycle, read off the word that it fetches. -/
def cycleLines (machine : Machine) : List String :=
  let word := machine.nextOpcode
  let operation := Operation.ofWord word
  let reached := operation.reach (word % 0x10) (word / 0x100 % 0x10)
  match machine.awaiting with
  | some _ => []
  | none =>
      Memory.strayLines [machine.pc, machine.pc + 1] ++
        [s!"mem_addr: 0x{Hex.padded 4 machine.pc}    instruction: {operation.text word}"] ++
        Memory.strayLines (Memory.addressesFrom machine.index reached) ++
        machine.remarkLines word

def notes (machine : Machine) (traced : Bool) : List Command → List Note
  | [] => []
  | command :: rest =>
      (perform command traced machine).notes ++
        notes (perform command traced machine).state traced rest

variable {machine : Machine} {traced : Bool} {i : Instruction}

/-! ### Steps that say nothing -/

theorem silent_value (x : Int) : Step.Silent (value x) :=
  .on (.bind .get fun _ => .bind (.ofExcept _) fun _ => .pure _)

theorem silent_put (x value : Int) : Step.Silent (put x value) :=
  .on (.bind .get fun _ => .bind (.ofExcept _) fun _ => .modify _)

theorem silent_putWithFlag (x value : Int) (flag : Bool) :
    Step.Silent (putWithFlag x value flag) :=
  .bind (silent_put x value) fun _ => silent_put _ _

theorem silent_keyDown (x : Int) : Step.Silent (keyDown x) :=
  .bind .get fun _ => .bind (silent_value x) fun _ => .ofExcept _

theorem silent_putKey (key down : Int) : Step.Silent (onKeypad (Keypad.put key down)) :=
  .on (.bind .get fun _ => .bind (.ofExcept _) fun _ => .modify _)

theorem silent_skipIf (condition : Bool) : Step.Silent (skipIf condition) := by
  cases condition with
  | false => exact .pure ()
  | true => exact .modify _

theorem silent_push (address : Int) : Step.Silent (CallStack.push address) := by
  refine .bind .get fun stack => ?_
  split
  · exact .fail _
  · exact .bind (.ofExcept _) fun _ => .modify _

theorem silent_pop : Step.Silent CallStack.pop := by
  refine .bind .get fun stack => ?_
  split
  · exact .fail _
  · exact .bind (.modify _) fun _ => .ofExcept _

/-! ### Instructions -/

theorem notes_waitForKey (x : Fin 16) (traced : Bool) (hmachine : machine.Whole) :
    (waitForKey x traced machine).notes =
      if traced then if machine.keypad.AllUp then [.awaitingKey x] else [] else [] := by
  cases hkey : machine.keypad.lowest with
  | none =>
      have hup : machine.keypad.AllUp := Keypad.lowest_eq_none_iff.mp hkey
      rw [waitForKey_of_none x traced hmachine hkey, if_pos hup]
  | some key =>
      have hdown : ¬machine.keypad.AllUp := fun hup => by
        rw [Keypad.lowest_eq_none_iff.mpr hup] at hkey
        cases hkey
      rw [waitForKey_of_some x traced hmachine hkey, if_neg hdown, ite_self]

/-- Whether it succeeds or fails, an instruction writes down its remarks and nothing else. -/
theorem notes_execute (i : Instruction) (traced : Bool) (hmachine : machine.WellFormed) :
    (execute i traced machine).notes = if traced then i.remarks machine else [] := by
  have hsilent {α : Type} {step : Step Machine α} (h : step.Silent) :
      (step traced machine).notes = if traced then [] else [] := by
    rw [h, ite_self]
  have hwrite (values : List Int) :
      (onMemory (Memory.writeFrom machine.index values) traced machine).notes =
        if traced then Memory.strays (Memory.addressesFrom machine.index values.length)
        else [] := by
    rw [onMemory, Step.on_apply, Memory.writeFrom_eq machine.index traced hmachine.memory]
  rw [execute, Step.get_bind]
  unfold Instruction.remarks
  cases i.operation with
  | clearScreen => exact hsilent (.on (.modify _))
  | returnFromCall => exact hsilent (.bind (.on silent_pop) fun _ => .modify _)
  | jump | loadIndex => exact hsilent (.modify _)
  | jumpWithOffset | addIndex | selectGlyph | setDelay | setSound =>
      exact hsilent (.bind (silent_value _) fun _ => .modify _)
  | call => exact hsilent (.bind (.on (silent_push _)) fun _ => .modify _)
  | skipIfByte | skipUnlessByte =>
      exact hsilent (.bind (silent_value _) fun _ => silent_skipIf _)
  | skipIfSame | skipUnlessSame =>
      exact hsilent (.bind (silent_value _) fun _ =>
        .bind (silent_value _) fun _ => silent_skipIf _)
  | loadByte | readDelay => exact hsilent (silent_put _ _)
  | addByte | copy => exact hsilent (.bind (silent_value _) fun _ => silent_put _ _)
  | bitOr | bitAnd | bitXor =>
      exact hsilent (.bind (silent_value _) fun _ => .bind (silent_value _) fun _ => silent_put _ _)
  | add | subtract | subtractFrom =>
      exact hsilent (.bind (silent_value _) fun _ =>
        .bind (silent_value _) fun _ => silent_putWithFlag _ _ _)
  | shiftRight | shiftLeft =>
      exact hsilent (.bind (silent_value _) fun _ => silent_putWithFlag _ _ _)
  | random =>
      exact hsilent (.bind (.on (.bind .get fun _ => .bind (.modify _) fun _ => .pure _))
        fun _ => silent_put _ _)
  | skipIfPressed | skipUnlessPressed =>
      exact hsilent (.bind (silent_keyDown _) fun _ => silent_skipIf _)
  | draw =>
      obtain ⟨cells, hit, -, hdraw⟩ :=
        drawSprite_eq (machine.registers.get i.x) (machine.registers.get i.y) i.n traced
          hmachine.toWhole hmachine.display.proper
      simp only [value_bind hmachine.registers, hdraw, Operation.reach, List.append_nil]
  | awaitKey => exact notes_waitForKey i.x traced hmachine.toWhole
  | storeDecimal =>
      rw [List.append_nil]
      simp only [value_bind hmachine.registers]
      exact hwrite _
  | storeRegisters =>
      have hlength : ((machine.registers.first (i.x + 1)).map (Nat.cast : Nat → Int)).length
          = i.x + 1 := by
        rw [List.length_map, Registers.length_first i.x.isLt]
      rw [List.append_nil]
      simp only [storeRegisters_eq hmachine.registers]
      exact (hwrite _).trans (by rw [hlength, Operation.reach])
  | loadRegisters =>
      simp only [loadRegisters_eq hmachine.toWhole, Operation.reach, List.append_nil]
  | unknown => rfl

/-! ### Cycles -/

theorem notes_resume (x : Fin 16) (traced : Bool) (hmachine : machine.Whole) :
    (resume x.val traced machine).notes = [] := by
  cases hkey : machine.keypad.lowest with
  | none => rw [resume_of_none hmachine.keypad x traced hkey]
  | some key => rw [resume_of_some hmachine x traced hkey]

/-- Whether it succeeds or fails, a cycle writes down what it is to write and nothing else. -/
theorem notes_cycle (traced : Bool) (hmachine : machine.WellFormed) :
    (cycle traced machine).notes = if traced then machine.cycleNotes else [] := by
  unfold cycleNotes
  cases hnext : machine.next? with
  | none =>
      obtain ⟨x, hawaiting⟩ := exists_awaiting hmachine.toWhole hnext
      rw [cycle_of_awaiting traced hawaiting, notes_resume x traced hmachine.toWhole, ite_self]
  | some i =>
      -- The address is found by going back from where the program counter has got to.
      have hpc : (Bits.mask (machine.fetched.pc - 2) wordMask : Int) = machine.pc := by
        have hword := hmachine.pc
        rw [fetched_eq, Bits.mask_wordMask]
        simp only
        omega
      have htrace : (trace i traced machine.fetched).notes
          = if traced then [.executing machine.pc i] else [] := by
        rw [trace, Step.get_bind, Step.note_apply, hpc]
      rw [cycle_eq_of_next? hmachine.memory traced hnext, fetch_eq hmachine.memory, htrace,
        notes_execute i traced (wellFormed_fetched hmachine)]
      cases traced with
      | false => rfl
      | true => rfl

/-! ### Lines -/

theorem map_line_remarks (machine : Machine) {word : Nat} (hword : word < 0x10000) :
    ((Instruction.decode word).remarks machine).map Note.line =
      Memory.strayLines (Memory.addressesFrom machine.index
        ((Operation.ofWord word).reach (word % 0x10) (word / 0x100 % 0x10))) ++
        machine.remarkLines word := by
  obtain ⟨hx, -, hn, -, -⟩ := Instruction.fields_decode word
  have hop : (Instruction.decode word).operation = .ofWord word :=
    Operation.ofOpcode_eq_ofWord hword
  have hx' : (Instruction.decode word).x.val = word / 0x100 % 0x10 := by omega
  have hn' : (Instruction.decode word).n = word % 0x10 := by omega
  rw [Instruction.remarks, List.map_append, Memory.map_line_strays, hop, hn', hx', remarkLines]
  congr 1
  cases Operation.ofWord word with
  | unknown => exact congrArg ([·]) (Note.line_unknownOpcode word)
  | awaitKey =>
      by_cases hup : machine.keypad.AllUp
      · simp only [if_pos hup, List.map_cons, List.map_nil, Note.line_awaitingKey, hx']
      · simp only [if_neg hup, List.map_nil]
  | _ => rfl

theorem map_line_cycleNotes (machine : Machine) :
    machine.cycleNotes.map Note.line = machine.cycleLines := by
  unfold cycleNotes cycleLines next?
  cases machine.awaiting with
  | some x => rfl
  | none =>
      have hword := nextOpcode_lt machine
      simp only [List.map_append, List.map_cons, Memory.map_line_strays,
        map_line_remarks machine hword, Note.line_executing, Instruction.assembly_decode hword,
        List.append_assoc, List.cons_append, List.nil_append]

/-! ### Runs -/

/-- What some cycles write down is what each of them writes down, in the order in which they run;
one that fails is the last. -/
theorem notes_cycles (traced : Bool) (hmachine : machine.WellFormed) (count : Nat) :
    (cycles count traced machine).notes =
      (machine.cycleStarts traced count).flatMap fun start =>
        if traced then start.cycleNotes else [] := by
  induction count generalizing machine with
  | zero => rfl
  | succ count ih =>
      rw [cycles, cycleStarts, List.flatMap_cons, ← notes_cycle traced hmachine]
      cases hresult : (cycle traced machine).result with
      | error fault =>
          rw [Step.bind_of_error hresult, List.flatMap_nil, List.append_nil]
      | ok done =>
          rw [Step.bind_of_ok hresult, ih ((cycle_turn traced hmachine).wellFormed hmachine)]

theorem notes_frame (count : Int) (traced : Bool) (machine : Machine) :
    (frame count traced machine).notes = (cycles count.toNat traced machine).notes := by
  refine Step.notes_bind_of_silent (fun _ => ?_) traced machine
  exact .bind (.modify _) fun _ => .on (.bind .get fun _ => .bind (.modify _) fun _ => .pure _)

theorem notes_perform (traced : Bool) (hmachine : machine.WellFormed) {command : Command}
    (hload : ∀ program, command ≠ .load program) :
    (perform command traced machine).notes =
      (machine.startsOf traced command).flatMap fun start =>
        if traced then start.cycleNotes else [] := by
  cases command with
  | load program => exact absurd rfl (hload program)
  | cycle =>
      rw [startsOf, List.flatMap_singleton, ← notes_cycle traced hmachine]
      exact Step.notes_bind_of_silent (fun _ => .pure none) traced machine
  | frame count =>
      rw [startsOf, ← notes_cycles traced hmachine, ← notes_frame]
      exact Step.notes_bind_of_silent (fun dirty => .pure (some dirty)) traced machine
  | press key | release key =>
      exact (Step.notes_bind_of_silent (fun _ => .pure none) traced machine).trans
        (silent_putKey key _ traced machine)
  | tick | takeDirty | reset => rfl

theorem notes_perform_untraced (hmachine : machine.WellFormed) (command : Command) :
    (perform command false machine).notes = [] := by
  by_cases hload : ∀ program, command ≠ .load program
  · rw [notes_perform false hmachine hload]
    simp
  · obtain ⟨program, rfl⟩ : ∃ program, command = .load program := by simpa using hload
    refine (Step.notes_bind_of_silent (fun _ => .pure none) false machine).trans ?_
    rw [load, onMemory, Step.on_apply, Memory.load]
    split
    · rfl
    · cases Byte.ofInts? program with
      | error fault => rfl
      | ok bytes => rfl

variable {capacity : Int}

theorem notes_eq_flatMap (traced : Bool) (hmachine : machine.Sound capacity)
    {commands : List Command} (hloads : ∀ program, .load program ∉ commands) :
    machine.notes traced commands =
      (machine.starts traced commands).flatMap fun start =>
        if traced then start.cycleNotes else [] := by
  induction commands generalizing machine with
  | nil => rfl
  | cons command rest ih =>
      have hload : ∀ program, command ≠ .load program := by
        rintro program rfl
        exact hloads program (List.mem_cons_self ..)
      have hrest : ∀ program, .load program ∉ rest := fun program hmem =>
        hloads program (List.mem_cons_of_mem command hmem)
      have hnext := (keeps_sound_perform command traced machine hmachine).1
      rw [notes, starts, List.flatMap_append, notes_perform traced hmachine.1 hload, ih hnext hrest]

theorem notes_untraced (hmachine : machine.Sound capacity) (commands : List Command) :
    machine.notes false commands = [] := by
  induction commands generalizing machine with
  | nil => rfl
  | cons command rest ih =>
      have hnext := (keeps_sound_perform command false machine hmachine).1
      rw [notes, notes_perform_untraced hmachine.1, ih hnext, List.append_nil]

/-- From any state that a run comes to, tracing logs what is executed: some cycles print the lines
of each cycle that begins, one cycle after the other, and so does a further run; no two operations
are written alike, and nothing is printed without tracing. -/
theorem printed_after_commands (capacity : Int) (random : RandomBytes) (traced : Bool)
    (earlier : List Command) :
    let machine := (powerOn capacity random).after traced earlier
    (∀ count, (cycles count true machine).notes.map Note.line
        = (machine.cycleStarts true count).flatMap cycleLines) ∧
      (∀ commands : List Command, (∀ program, .load program ∉ commands) →
        (machine.notes true commands).map Note.line
          = (machine.starts true commands).flatMap cycleLines) ∧
      (∀ word word' : Nat, word < 0x10000 → word' < 0x10000 →
        (Instruction.decode word).operation ≠ (Instruction.decode word').operation →
        (Instruction.decode word).assembly ≠ (Instruction.decode word').assembly) ∧
      ∀ commands, machine.notes false commands = [] := by
  intro machine
  have hmachine : machine.Sound capacity := sound_after traced earlier (sound_powerOn _ _)
  have hlines (starts : List Machine) :
      (starts.flatMap fun start => if true then start.cycleNotes else []).map Note.line
        = starts.flatMap cycleLines := by
    rw [List.map_flatMap]
    exact List.flatMap_congr fun start _ => map_line_cycleNotes start
  refine ⟨fun count => ?_, fun commands hloads => ?_, fun word word' hword hword' hne htext => ?_,
    notes_untraced hmachine⟩
  · rw [notes_cycles true hmachine.1, hlines]
  · rw [notes_eq_flatMap true hmachine hloads, hlines]
  · apply hne
    rw [Instruction.assembly_decode hword, Instruction.assembly_decode hword'] at htext
    have hop : (Instruction.decode word).operation = .ofWord word :=
      Operation.ofOpcode_eq_ofWord hword
    have hop' : (Instruction.decode word').operation = .ofWord word' :=
      Operation.ofOpcode_eq_ofWord hword'
    rw [hop, hop', Operation.eq_of_text_eq htext]

end Machine

end ChipEight
