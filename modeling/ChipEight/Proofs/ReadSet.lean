import ChipEight.Proofs.Footprint
import ChipEight.Proofs.Resemblance
import ChipEight.Proofs.Wholeness
import Mathlib.Data.Set.Basic

/-!
What a run reads. A cycle reads the two bytes of its opcode and the bytes that the opcode asks for;
only these can influence it, so cells that a run never reads before it has written them itself are
of no consequence.
-/

namespace ChipEight

/-- The numbers of the cells from an address on. -/
def Memory.span (address : Int) (count : Nat) : List Int :=
  (List.range count).map fun k : Nat => (address + k) % 0x1000

/-- The values that an instruction writes from I on. -/
def Instruction.stored (i : Instruction) (registers : Registers) : List Nat :=
  match i.operation with
  | .storeDecimal =>
      let value := registers.get i.x
      [value / 100, value / 10 % 10, value % 10]
  | .storeRegisters => registers.first (i.x + 1)
  | _ => []

namespace Machine

def reads (machine : Machine) : List Int :=
  match machine.next? with
  | none => []
  | some i => Memory.span machine.pc 2 ++ Memory.span machine.index i.reach

def stored (machine : Machine) : List Nat :=
  match machine.next? with
  | none => []
  | some i => i.stored machine.registers

def stores (machine : Machine) : List Int :=
  Memory.span machine.index machine.stored.length

structure DifferIn (hidden : Set Int) (machine machine' : Machine) : Prop where
  memory : ∀ address, address % 0x1000 ∉ hidden →
    machine.memory.get address = machine'.memory.get address
  rest : machine' = { machine with memory := machine'.memory }

end Machine

/-- The cells that none of some cycles writes. -/
def remaining (hidden : Set Int) (starts : List Machine) : Set Int :=
  {cell | cell ∈ hidden ∧ ∀ start ∈ starts, cell ∉ start.stores}

/-- No cycle reads a hidden cell that no cycle before it has written. -/
def LookBeside (hidden : Set Int) (starts : List Machine) : Prop :=
  ∀ before start later, starts = before ++ start :: later →
    ∀ cell ∈ start.reads, cell ∈ hidden → ∃ earlier ∈ before, cell ∈ earlier.stores

section

variable {hidden : Set Int} {first second : List Machine} {start : Machine}

theorem remaining_nil (hidden : Set Int) : remaining hidden [] = hidden := by
  simp [remaining]

theorem remaining_append (hidden : Set Int) (first second : List Machine) :
    remaining hidden (first ++ second) = remaining (remaining hidden first) second := by
  ext cell
  simp only [remaining, Set.mem_ofPred_eq, List.mem_append, or_imp, forall_and, and_assoc]

theorem LookBeside.left (h : LookBeside hidden (first ++ second)) : LookBeside hidden first := by
  intro before start later hsplit
  refine h before start (later ++ second) ?_
  rw [hsplit, List.append_assoc, List.cons_append]

theorem LookBeside.right (h : LookBeside hidden (first ++ second)) :
    LookBeside (remaining hidden first) second := by
  intro before start later hsplit cell hread hcell
  have hwhole : first ++ second = (first ++ before) ++ start :: later := by
    rw [hsplit, List.append_assoc]
  obtain ⟨earlier, hmem, hstored⟩ := h _ start later hwhole cell hread hcell.1
  rcases List.mem_append.mp hmem with hfirst | hbefore
  · exact absurd hstored (hcell.2 earlier hfirst)
  · exact ⟨earlier, hbefore, hstored⟩

theorem LookBeside.not_mem (h : LookBeside hidden [start]) :
    ∀ cell ∈ start.reads, cell ∉ hidden := by
  intro cell hread hcell
  obtain ⟨earlier, hmem, -⟩ := h [] start [] rfl cell hread hcell
  cases hmem

end

/-! ### Memory -/

namespace Memory

variable {memory memory' : Memory} {address other : Int} {count : Nat}

theorem mem_span_iff {cell : Int} :
    cell ∈ span address count ↔ ∃ k < count, (address + (k : Nat)) % 0x1000 = cell := by
  simp [span]

/-- Where the same values are written, it does not matter what was there. -/
theorem get_stored_congr (hmemory : memory.Whole) (hmemory' : memory'.Whole) {values : List Int}
    (h : memory.get other = memory'.get other ∨ other % 0x1000 ∈ span address values.length) :
    (memory.stored address values).get other = (memory'.stored address values).get other := by
  induction values generalizing address memory memory' with
  | nil => simpa [span, stored] using h
  | cons value rest ih =>
      refine ih ((whole_set_iff address).mpr hmemory) ((whole_set_iff address).mpr hmemory') ?_
      by_cases hsame : address ≡ other [ZMOD 0x1000]
      · left
        apply UInt8.toNat_inj.mp
        have hset : ((memory.set address value).get other).toNat = value % 0x100 :=
          get_set_same hmemory value hsame
        have hset' : ((memory'.set address value).get other).toNat = value % 0x100 :=
          get_set_same hmemory' value hsame
        omega
      · rw [get_set_other value hsame, get_set_other value hsame]
        refine h.imp_right fun hspan => ?_
        obtain ⟨k, hk, hcell⟩ := mem_span_iff.mp hspan
        cases k with
        | zero => exact absurd (by simpa [Int.ModEq] using hcell) hsame
        | succ k =>
            refine mem_span_iff.mpr ⟨k, Nat.lt_of_succ_lt_succ hk, ?_⟩
            rw [← hcell, Nat.cast_succ, Int.add_assoc, Int.add_comm 1]

theorem get_stored_of_not_mem {values : List Int}
    (h : other % 0x1000 ∉ span address values.length) :
    (memory.stored address values).get other = memory.get other := by
  apply get_stored_beside
  intro k hk hsame
  exact h (mem_span_iff.mpr ⟨k, hk, hsame⟩)

theorem block_congr
    (h : ∀ cell ∈ span address count, memory.get cell = memory'.get cell) :
    memory.block address count = memory'.block address count := by
  rw [block_eq_map, block_eq_map]
  apply List.map_congr_left
  intro k hk
  have hplace : (address + (k : Nat)) % 0x1000 ≡ address + (k : Nat) [ZMOD 0x1000] :=
    Int.mod_modEq _ _
  rw [← get_congr hplace, ← get_congr hplace]
  exact h _ (mem_span_iff.mpr ⟨k, List.mem_range.mp hk, rfl⟩)

end Memory

/-! ### What a cycle does to the memory -/

namespace Machine

variable {machine : Machine} {i : Instruction}

theorem memory_mem_writes_iff :
    .memory ∈ i.writes ↔ i.operation = .storeDecimal ∨ i.operation = .storeRegisters := by
  unfold Instruction.writes
  cases i.operation <;> simp [-List.map_take]

theorem memory_execute (hmachine : machine.Whole) (traced : Bool) :
    (execute i traced machine).state.memory =
      machine.memory.stored machine.index ((i.stored machine.registers).map Nat.cast) := by
  by_cases hdecimal : i.operation = .storeDecimal
  · rw [memory_of_storeDecimal hmachine traced hdecimal, Instruction.stored, hdecimal]
  · by_cases hregisters : i.operation = .storeRegisters
    · rw [memory_of_storeRegisters hmachine traced hregisters, Instruction.stored, hregisters]
    · have hstored : i.stored machine.registers = [] := by
        unfold Instruction.stored
        cases hop : i.operation <;> simp_all
      have hsame := touches_execute i traced machine .memory
        (by simp [not_mem_steers, memory_mem_writes_iff, hdecimal, hregisters])
      rw [hstored]
      exact hsame

/-- After a cycle the memory is as before, but for what the cycle has stored. -/
theorem memory_cycle (hmachine : machine.Whole) (traced : Bool) :
    (cycle traced machine).state.memory =
      machine.memory.stored machine.index (machine.stored.map Nat.cast) := by
  unfold stored
  cases hnext : machine.next? with
  | some i =>
      rw [(cycle_of_next? hmachine.memory traced hnext).1]
      exact memory_execute (whole_fetched hmachine) traced
  | none =>
      obtain ⟨x, hawaiting⟩ := exists_awaiting hmachine hnext
      have hsame : Part.memory.Same machine (cycle traced machine).state :=
        same_cycle hmachine traced (by simp [writes_of_awaiting hawaiting])
      exact hsame

end Machine

/-! ### Two runs -/

namespace Memory

theorem agree_write_of_whole (address address' value : Int) :
    Step.Agree (fun memory memory' => memory.Whole ∧ memory'.Whole) Eq (write address value)
      (write address' value) := by
  rintro traced traced' memory memory' ⟨hmemory, hmemory'⟩
  rw [write_eq address traced hmemory, write_eq address' traced' hmemory']
  exact ⟨⟨(whole_set_iff address).mpr hmemory, (whole_set_iff address').mpr hmemory'⟩, rfl⟩

theorem agree_load_of_whole (program : List Int) :
    Step.Agree (fun memory memory' => memory.Whole ∧ memory'.Whole) Eq (load program)
      (load program) := by
  rintro traced traced' memory memory' ⟨hmemory, hmemory'⟩
  refine ⟨⟨whole_load hmemory program traced, whole_load hmemory' program traced'⟩, ?_⟩
  by_cases hloadable : Loadable program
  · rw [load_of_loadable hloadable, load_of_loadable hloadable]
    rfl
  · rw [load_of_not_loadable hloadable, load_of_not_loadable hloadable]
    rfl

end Memory

/-- Everything has to be the same but what the memories hold. -/
def Resemblance.besideMemory : Resemblance :=
  { exact with
    memory := fun memory memory' => memory.Whole ∧ memory'.Whole
    memory_initial := ⟨Memory.whole_initial, Memory.whole_initial⟩
    memory_write := fun value _ => Memory.agree_write_of_whole _ _ value
    memory_load := Memory.agree_load_of_whole }

namespace Machine

variable {machine machine' : Machine} {i : Instruction}

theorem Resembles.eq_besideMemory (h : machine.Resembles .besideMemory machine') :
    machine' = { machine with memory := machine'.memory } :=
  Machine.ext rfl h.stack.symm h.registers.symm h.pc.symm h.index.symm
    (Timers.ext h.delay.symm h.sound.symm)
    (Display.ext h.display.width.symm h.display.height.symm h.display.cells.symm
      h.display.dirty.symm)
    h.keypad.symm h.awaiting.symm h.opcode.symm h.random.symm

theorem resembles_besideMemory (hmemory : machine.memory.Whole) (hmemory' : machine'.memory.Whole)
    (h : machine' = { machine with memory := machine'.memory }) :
    machine.Resembles .besideMemory machine' := by
  rw [h]
  exact ⟨⟨hmemory, hmemory'⟩, rfl, rfl, rfl, rfl, rfl, rfl, ⟨rfl, rfl, rfl, rfl⟩, rfl, rfl, rfl,
    rfl⟩

/-- Two machines on their way from two others: they differ at most in hidden cells, and these hold
what they held in the beginning. -/
structure Parallel (hidden : Set Int) (origin origin' machine machine' : Machine) : Prop where
  whole : machine.Whole
  whole' : machine'.Whole
  beside : machine.Resembles .besideMemory machine'
  memory : ∀ address, address % 0x1000 ∉ hidden →
    machine.memory.get address = machine'.memory.get address
  kept : ∀ address, address % 0x1000 ∈ hidden →
    machine.memory.get address = origin.memory.get address ∧
      machine'.memory.get address = origin'.memory.get address

variable {hidden : Set Int} {origin origin' : Machine} {traced : Bool}

theorem Parallel.nextOpcode_eq (h : Parallel hidden origin origin' machine machine')
    (hreads : ∀ cell ∈ machine.reads, cell ∉ hidden) (hawaiting : machine.awaiting = none) :
    machine.nextOpcode = machine'.nextOpcode := by
  have hspan : ∀ k < 2, (machine.pc + (k : Nat)) % 0x1000 ∉ hidden := by
    intro k hk
    apply hreads
    rw [reads, next?_of_awaiting_eq_none hawaiting]
    exact List.mem_append_left _ (Memory.mem_span_iff.mpr ⟨k, hk, rfl⟩)
  have hhigh := h.memory machine.pc (by simpa using hspan 0 (by omega))
  have hlow := h.memory (machine.pc + 1) (by simpa using hspan 1 (by omega))
  have hpc : machine'.pc = machine.pc := h.beside.pc.symm
  rw [nextOpcode, nextOpcode, hpc, hhigh, hlow]

theorem Parallel.next?_eq (h : Parallel hidden origin origin' machine machine')
    (hreads : ∀ cell ∈ machine.reads, cell ∉ hidden) : machine.next? = machine'.next? := by
  have hsame : machine'.awaiting = machine.awaiting := h.beside.awaiting.symm
  cases hawaiting : machine.awaiting with
  | none => rw [next?, next?, hsame, hawaiting, h.nextOpcode_eq hreads hawaiting]
  | some register => rw [next?, next?, hsame, hawaiting]

theorem Parallel.block_eq (h : Parallel hidden origin origin' machine machine')
    (hreads : ∀ cell ∈ machine.reads, cell ∉ hidden) (hnext : machine.next? = some i) :
    machine.memory.block machine.index i.reach
      = machine'.memory.block machine'.index i.reach := by
  have hindex : machine'.index = machine.index := h.beside.index.symm
  rw [hindex]
  apply Memory.block_congr
  intro cell hcell
  apply h.memory
  obtain ⟨k, hk, rfl⟩ := Memory.mem_span_iff.mp hcell
  rw [Int.emod_emod_of_dvd _ (Int.dvd_refl _)]
  apply hreads
  rw [reads, hnext]
  exact List.mem_append_right _ hcell

theorem Parallel.stored_eq (h : Parallel hidden origin origin' machine machine')
    (hreads : ∀ cell ∈ machine.reads, cell ∉ hidden) : machine.stored = machine'.stored := by
  rw [stored, stored, h.next?_eq hreads, h.beside.registers]

theorem Parallel.resembles_fetched (h : Parallel hidden origin origin' machine machine')
    (hopcode : machine.nextOpcode = machine'.nextOpcode) :
    machine.fetched.Resembles .besideMemory machine'.fetched := by
  have hpc : machine'.pc = machine.pc := h.beside.pc.symm
  rw [fetched, fetched, hpc, hopcode]
  exact { h.beside with pc := rfl, opcode := rfl }

/-- A cycle that reads no hidden cell goes alike in both machines. -/
theorem Parallel.agreeFrom_cycle (h : Parallel hidden origin origin' machine machine')
    (hreads : ∀ cell ∈ machine.reads, cell ∉ hidden) :
    Step.AgreeFrom (Resembles .besideMemory) Eq cycle cycle machine machine' := by
  intro traced traced'
  cases hnext : machine.next? with
  | none =>
      obtain ⟨register, hawaiting⟩ := awaiting_of_next?_eq_none hnext
      rw [cycle_of_awaiting traced hawaiting,
        cycle_of_awaiting traced' (h.beside.awaiting ▸ hawaiting)]
      exact agree_resume register traced traced' machine machine' h.beside
  | some i =>
      have hnext' : machine'.next? = some i := h.next?_eq hreads ▸ hnext
      have hfetched := h.resembles_fetched (h.nextOpcode_eq hreads (awaiting_of_next? hnext))
      have hread : ReadAlike .besideMemory i machine.fetched machine'.fetched := by
        intro traced traced'
        have hleft := Memory.readFrom_eq machine.fetched.index traced
          (whole_fetched h.whole).memory i.reach
        have hright := Memory.readFrom_eq machine'.fetched.index traced'
          (whole_fetched h.whole').memory i.reach
        simp only [onMemory, Step.on_apply, hleft, hright]
        exact ⟨hfetched, h.block_eq hreads hnext⟩
      obtain ⟨hstate, hresult⟩ := cycle_of_next? h.whole.memory traced hnext
      obtain ⟨hstate', hresult'⟩ := cycle_of_next? h.whole'.memory traced' hnext'
      rw [hstate, hresult, hstate', hresult']
      exact agreeFrom_execute hfetched hread traced traced'

theorem Parallel.cycle (h : Parallel hidden origin origin' machine machine')
    (traced traced' : Bool) (hreads : ∀ cell ∈ machine.reads, cell ∉ hidden) :
    Parallel (remaining hidden [machine]) origin origin' (cycle traced machine).state
        (Machine.cycle traced' machine').state ∧
      (Machine.cycle traced machine).result = (Machine.cycle traced' machine').result := by
  obtain ⟨hbeside, hresult⟩ := h.agreeFrom_cycle hreads traced traced'
  have hmemory := memory_cycle h.whole traced
  have hmemory' := memory_cycle h.whole' traced'
  rw [← h.beside.index, ← h.stored_eq hreads] at hmemory'
  have hstores : ∀ cell, cell ∈ machine.stores ↔
      cell ∈ Memory.span machine.index (machine.stored.map (Nat.cast : Nat → Int)).length := by
    simp [stores]
  -- Both memories take the same values at the same cells: there they are alike from now on, and
  -- elsewhere they stay as they are.
  refine ⟨⟨keepsWhole_cycle traced _ h.whole, keepsWhole_cycle traced' _ h.whole', hbeside, ?_,
    ?_⟩, resultsAgree_eq_iff.mp hresult⟩
  · intro address haddress
    rw [hmemory, hmemory']
    apply Memory.get_stored_congr h.whole.memory h.whole'.memory
    by_cases hcell : address % 0x1000 ∈ hidden
    · right
      rw [← hstores]
      by_contra hspared
      exact haddress ⟨hcell, by simpa using hspared⟩
    · exact .inl (h.memory address hcell)
  · rintro address ⟨hcell, hspared⟩
    have hbeyond : address % 0x1000 ∉
        Memory.span machine.index (machine.stored.map (Nat.cast : Nat → Int)).length := by
      rw [← hstores]
      exact hspared machine (List.mem_singleton.mpr rfl)
    rw [hmemory, hmemory', Memory.get_stored_of_not_mem hbeyond,
      Memory.get_stored_of_not_mem hbeyond]
    exact h.kept address hcell

theorem Parallel.cycles (h : Parallel hidden origin origin' machine machine') (traced' : Bool)
    (count : Nat) (hbeside : LookBeside hidden (machine.cycleStarts traced count)) :
    Parallel (remaining hidden (machine.cycleStarts traced count)) origin origin'
        (cycles count traced machine).state (Machine.cycles count traced' machine').state ∧
      (Machine.cycles count traced machine).result
        = (Machine.cycles count traced' machine').result := by
  -- On the number of cycles, while fewer and fewer cells stay hidden.
  induction count generalizing hidden machine machine' with
  | zero =>
      rw [cycleStarts, remaining_nil]
      exact ⟨h, rfl⟩
  | succ count ih =>
      rw [cycleStarts] at hbeside ⊢
      rw [← List.singleton_append] at hbeside ⊢
      obtain ⟨hfirst, hresult⟩ := h.cycle traced traced' hbeside.left.not_mem
      rw [remaining_append, Machine.cycles]
      cases hcycle : (Machine.cycle traced machine).result with
      | error fault =>
          rw [Step.bind_of_error hcycle, Step.bind_of_error (hresult ▸ hcycle), remaining_nil]
          exact ⟨hfirst, rfl⟩
      | ok done =>
          rw [Step.bind_of_ok hcycle, Step.bind_of_ok (hresult ▸ hcycle)]
          have hrest := hbeside.right
          rw [hcycle] at hrest
          exact ih hfirst hrest

theorem agree_parallel {α : Type} {step : Step Machine α}
    (hstep : Step.Agree (Resembles .besideMemory) Eq step step) (hwhole : KeepsWhole step)
    (hmemory : ∀ traced machine, (step traced machine).state.memory = machine.memory) :
    Step.Agree (Parallel hidden origin origin') Eq step step := by
  intro traced traced' machine machine' h
  obtain ⟨hbeside, hresult⟩ := hstep traced traced' machine machine' h.beside
  refine ⟨⟨hwhole traced _ h.whole, hwhole traced' _ h.whole', hbeside, ?_, ?_⟩, hresult⟩
  · rw [hmemory, hmemory]
    exact h.memory
  · rw [hmemory, hmemory]
    exact h.kept

theorem Parallel.frame (h : Parallel hidden origin origin' machine machine') (traced' : Bool)
    (count : Int) (hbeside : LookBeside hidden (machine.cycleStarts traced count.toNat)) :
    Parallel (remaining hidden (machine.cycleStarts traced count.toNat)) origin origin'
        (frame count traced machine).state (Machine.frame count traced' machine').state ∧
      (Machine.frame count traced machine).result
        = (Machine.frame count traced' machine').result := by
  have hend : Step.Agree (Parallel (remaining hidden (machine.cycleStarts traced count.toNat))
      origin origin') Eq (Step.modify tick >>= fun _ => takeDirty)
      (Step.modify tick >>= fun _ => takeDirty) :=
    agree_parallel (.bindSame agree_tick fun _ => agree_takeDirty)
      (keepsWhole_tick.bind fun _ => keepsWhole_onDisplay _) fun _ _ => rfl
  obtain ⟨hcycles, hresult⟩ := h.cycles traced' count.toNat hbeside
  obtain ⟨hframe, hanswer⟩ :=
    Step.agree_bind hcycles (resultsAgree_eq_iff.mpr hresult) fun _ _ _ => hend
  exact ⟨hframe, resultsAgree_eq_iff.mp hanswer⟩

theorem Parallel.perform_of_quiet (h : Parallel hidden origin origin' machine machine')
    (traced' : Bool) {command : Command} (hstarts : machine.startsOf traced command = [])
    (hstep : Step.Agree (Resembles .besideMemory) Eq (perform command) (perform command))
    (hmemory : ∀ traced machine, (perform command traced machine).state.memory = machine.memory) :
    Parallel (remaining hidden (machine.startsOf traced command)) origin origin'
        (perform command traced machine).state (perform command traced' machine').state ∧
      (perform command traced machine).result = (perform command traced' machine').result := by
  obtain ⟨hstates, hresult⟩ := agree_parallel hstep (keepsWhole_perform command) hmemory
    traced traced' machine machine' h
  rw [hstarts, remaining_nil]
  exact ⟨hstates, resultsAgree_eq_iff.mp hresult⟩

theorem Parallel.perform (h : Parallel hidden origin origin' machine machine') (traced' : Bool)
    {command : Command} (hkeeps : command.keepsProgram)
    (hbeside : LookBeside hidden (machine.startsOf traced command)) :
    Parallel (remaining hidden (machine.startsOf traced command)) origin origin'
        (perform command traced machine).state (Machine.perform command traced' machine').state ∧
      (Machine.perform command traced machine).result
        = (Machine.perform command traced' machine').result := by
  cases command with
  | load program => cases hkeeps
  | reset => cases hkeeps
  | cycle =>
      obtain ⟨hcycle, hresult⟩ := h.cycle traced traced' hbeside.not_mem
      obtain ⟨hstates, hanswer⟩ := Step.agree_bind (T := Eq) hcycle
        (resultsAgree_eq_iff.mpr hresult) fun _ _ _ => .pure (Eq.refl none)
      exact ⟨hstates, resultsAgree_eq_iff.mp hanswer⟩
  | frame count =>
      obtain ⟨hframe, hresult⟩ := h.frame traced' count hbeside
      obtain ⟨hstates, hanswer⟩ := Step.agree_bind (T := Eq) hframe
        (resultsAgree_eq_iff.mpr hresult) fun _ _ hdirty => .pure (congrArg some hdirty)
      exact ⟨hstates, resultsAgree_eq_iff.mp hanswer⟩
  | tick =>
      have hstep : Step.Agree (Resembles .besideMemory) Eq (Machine.perform .tick)
          (Machine.perform .tick) := .bindSame agree_tick fun _ => .pure rfl
      exact h.perform_of_quiet traced' rfl hstep fun _ _ => rfl
  | press key =>
      have hstep : Step.Agree (Resembles .besideMemory) Eq (Machine.perform (.press key))
          (Machine.perform (.press key)) :=
        .bindSame (agree_onKeypad (Keypad.agree_put key 1)) fun _ => .pure rfl
      refine h.perform_of_quiet traced' rfl hstep fun traced machine => ?_
      rw [state_perform_press]
      rfl
  | release key =>
      have hstep : Step.Agree (Resembles .besideMemory) Eq (Machine.perform (.release key))
          (Machine.perform (.release key)) :=
        .bindSame (agree_onKeypad (Keypad.agree_put key 0)) fun _ => .pure rfl
      refine h.perform_of_quiet traced' rfl hstep fun traced machine => ?_
      rw [state_perform_release]
      rfl
  | takeDirty =>
      have hstep : Step.Agree (Resembles .besideMemory) Eq (Machine.perform .takeDirty)
          (Machine.perform .takeDirty) := .bindSame agree_takeDirty fun _ => .pure rfl
      exact h.perform_of_quiet traced' rfl hstep fun _ _ => rfl

theorem Parallel.run (h : Parallel hidden origin origin' machine machine') (traced' : Bool)
    {commands : List Command} (hkeeps : ∀ command ∈ commands, command.keepsProgram)
    (hbeside : LookBeside hidden (machine.starts traced commands)) :
    Parallel (remaining hidden (machine.starts traced commands)) origin origin'
        (machine.after traced commands) (machine'.after traced' commands) ∧
      machine.results traced commands = machine'.results traced' commands := by
  induction commands generalizing hidden machine machine' with
  | nil =>
      rw [starts, remaining_nil]
      exact ⟨h, rfl⟩
  | cons command rest ih =>
      rw [starts] at hbeside ⊢
      rw [List.forall_mem_cons] at hkeeps
      obtain ⟨hfirst, hresult⟩ := h.perform traced' hkeeps.1 hbeside.left
      obtain ⟨hend, hresults⟩ := ih hfirst hkeeps.2 hbeside.right
      rw [remaining_append, results, results, hresult, hresults]
      exact ⟨hend, rfl⟩

/-- Two machines that differ in hidden cells go through a run alike, as long as it reads no hidden
cell that it has not written before; the cells that it has not written stay as they are. -/
theorem run_eq_of_differIn (hmachine : machine.Whole) (hmachine' : machine'.Whole)
    (h : machine.DifferIn hidden machine') {commands : List Command}
    (hkeeps : ∀ command ∈ commands, command.keepsProgram)
    (hbeside : LookBeside hidden (machine.starts traced commands)) (traced' : Bool) :
    let left := remaining hidden (machine.starts traced commands)
    machine.results traced commands = machine'.results traced' commands ∧
      (machine.after traced commands).DifferIn left (machine'.after traced' commands) ∧
      ∀ address, address % 0x1000 ∈ left →
        (machine.after traced commands).memory.get address = machine.memory.get address ∧
          (machine'.after traced' commands).memory.get address = machine'.memory.get address := by
  intro left
  have hstart : Parallel hidden machine machine' machine machine' :=
    ⟨hmachine, hmachine', resembles_besideMemory hmachine.memory hmachine'.memory h.rest,
      h.memory, fun _ _ => ⟨rfl, rfl⟩⟩
  obtain ⟨hend, hresults⟩ := hstart.run traced' hkeeps hbeside
  exact ⟨hresults, ⟨hend.memory, hend.beside.eq_besideMemory⟩, hend.kept⟩

/-- A program that writes V0 to a cell and reads it back, on two machines that differ there. -/
theorem run_eq_of_differIn_overwritten :
    let machine := { powerOn 2 (.cycling #[7]) with
      memory := Memory.initial.install #[0xF0, 0x55, 0xF0, 0x65]
      index := 0x300 }
    let machine' := { machine with memory := machine.memory.set 0x300 9 }
    let commands := [Command.cycle, .press 4, .frame 12, .tick]
    machine.Whole ∧ machine'.Whole ∧ machine.DifferIn {0x300} machine' ∧
      (∀ command ∈ commands, command.keepsProgram) ∧
      LookBeside {0x300} (machine.starts false commands) ∧
      machine.results false commands = machine'.results true commands := by
  intro machine machine' commands
  have hmemory : machine.memory = Memory.initial.install #[0xF0, 0x55, 0xF0, 0x65] := rfl
  have hpc : machine.pc = programStart := rfl
  have hawaiting : machine.awaiting = none := rfl
  have hnext : machine.next? = some (.decode 0xF055) :=
    next?_of_install Memory.whole_initial hmemory hpc hawaiting (by decide) rfl rfl
  have hmachine : machine.Whole :=
    { whole_powerOn 2 (.cycling #[7]) with
      memory := Memory.whole_install Memory.whole_initial (by decide) }
  have hmachine' : machine'.Whole :=
    { hmachine with memory := (Memory.whole_set_iff 0x300).mpr hmachine.memory }
  have hdiffer : machine.DifferIn {0x300} machine' := by
    refine ⟨fun address haddress => ?_, rfl⟩
    refine (Memory.get_set_other 9 fun hsame => haddress ?_).symm
    exact hsame.symm
  have hkeeps : ∀ command ∈ commands, command.keepsProgram := by decide
  have hstores : 0x300 ∈ machine.stores := by
    rw [stores, stored, hnext]
    decide
  have hreads : 0x300 ∉ machine.reads := by
    rw [reads, hnext]
    decide
  have hbeside : LookBeside {0x300} (machine.starts false commands) := by
    rintro before start later hsplit cell hread rfl
    cases before with
    | nil =>
        have hfirst : machine = start := (List.cons.inj hsplit).1
        exact absurd (hfirst ▸ hread) hreads
    | cons first others =>
        have hfirst : machine = first := (List.cons.inj hsplit).1
        exact ⟨first, List.mem_cons_self, hfirst ▸ hstores⟩
  exact ⟨hmachine, hmachine', hdiffer, hkeeps, hbeside,
    (run_eq_of_differIn hmachine hmachine' hdiffer hkeeps hbeside true).1⟩

end Machine

end ChipEight
