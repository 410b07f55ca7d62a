import ChipEight.Proofs.Resemblance

/-!
What is only observed. The sound timer, the opcode fetched last, the display's flag and the stale
slots of the stack are there for the outside to look at, and so is the trace: none of them has a say
in what a machine does next.
-/

namespace ChipEight

/-- Two machines that differ at most in what is only observed. -/
structure Machine.Alike (machine machine' : Machine) : Prop where
  memory : machine.memory = machine'.memory
  capacity : machine.stack.capacity = machine'.stack.capacity
  depth : machine.stack.depth = machine'.stack.depth
  live : machine.stack.live = machine'.stack.live
  registers : machine.registers = machine'.registers
  pc : machine.pc = machine'.pc
  index : machine.index = machine'.index
  delay : machine.timers.delay = machine'.timers.delay
  width : machine.display.width = machine'.display.width
  height : machine.display.height = machine'.display.height
  cells : machine.display.cells = machine'.display.cells
  keypad : machine.keypad = machine'.keypad
  awaiting : machine.awaiting = machine'.awaiting
  random : machine.random = machine'.random

def faultOf {α : Type} : Except Fault α → Option Fault
  | .ok _ => none
  | .error fault => some fault

/-- Two machines fail at the same commands of a run and for the same reasons, and are alike whenever
a cycle begins and in the end. -/
structure Machine.StayAlike (machine machine' : Machine) (traced traced' : Bool)
    (commands : List Command) : Prop where
  faults : (machine.results traced commands).map faultOf
    = (machine'.results traced' commands).map faultOf
  starts : List.Forall₂ Alike (machine.starts traced commands) (machine'.starts traced' commands)
  after : (machine.after traced commands).Alike (machine'.after traced' commands)

/-- A run never returns to anything but the latest live address. -/
def Machine.ReturnsToLive (machine : Machine) (traced : Bool) (commands : List Command) : Prop :=
  ∀ start ∈ machine.starts traced commands, ∀ i, start.next? = some i →
    i.operation = .returnFromCall → (cycle traced start).result = .ok () →
      start.stack.live.getLast? = some (cycle traced start).state.pc

/-! ### What is only observed is overlooked -/

def Resemblance.unobserved : Resemblance :=
  { exact with
    memory := fun memory memory' => memory = memory' ∧ memory.Whole
    memory_initial := ⟨rfl, Memory.whole_initial⟩
    memory_write := by
      rintro address _ value rfl traced traced' memory _ ⟨rfl, hmemory⟩
      rw [Memory.write_eq address traced hmemory, Memory.write_eq address traced' hmemory]
      exact ⟨⟨rfl, (Memory.whole_set_iff address).mpr hmemory⟩, rfl⟩
    memory_load := by
      rintro program traced traced' memory _ ⟨rfl, hmemory⟩
      obtain ⟨hsame, hresult⟩ := Memory.agree_load program traced traced' memory memory rfl
      exact ⟨⟨hsame, Memory.whole_load hmemory program traced⟩, hresult⟩
    stack := CallStack.Paired Eq
    sound := fun _ _ => True
    flag := fun _ _ => True
    opcode := fun _ _ => True
    stack_empty := CallStack.Paired.empty
    stack_push := CallStack.agree_push
    stack_pop := CallStack.agree_pop
    sound_refl := fun _ => trivial
    sound_countDown := fun _ => trivial
    flag_refl := fun _ => trivial
    opcode_refl := fun _ => trivial }

theorem Resemblance.transparent_unobserved : unobserved.Transparent := by
  rintro address _ rfl traced traced' memory _ ⟨rfl, hmemory⟩
  rw [Memory.read_eq address traced hmemory, Memory.read_eq address traced' hmemory]
  exact ⟨⟨rfl, hmemory⟩, rfl⟩

namespace Machine

variable {machine machine' : Machine}

theorem Alike.resembles (h : machine.Alike machine') (hmachine : machine.Whole)
    (hmachine' : machine'.Whole) : machine.Resembles .unobserved machine' where
  memory := ⟨h.memory, hmachine.memory⟩
  stack :=
    { capacity := h.capacity
      depth := h.depth
      live := by rw [h.live, List.forall₂_eq_eq_eq]
      stored := hmachine.stored
      stored' := hmachine'.stored }
  registers := h.registers
  pc := h.pc
  index := h.index
  delay := h.delay
  sound := trivial
  display := ⟨h.width, h.height, h.cells, trivial⟩
  keypad := h.keypad
  awaiting := h.awaiting
  opcode := trivial
  random := h.random

theorem Resembles.alike (h : machine.Resembles .unobserved machine') : machine.Alike machine' where
  memory := h.memory.1
  capacity := h.stack.capacity
  depth := h.stack.depth
  live := by
    have hlive := h.stack.live
    rwa [List.forall₂_eq_eq_eq] at hlive
  registers := h.registers
  pc := h.pc
  index := h.index
  delay := h.delay
  width := h.display.width
  height := h.display.height
  cells := h.display.cells
  keypad := h.keypad
  awaiting := h.awaiting
  random := h.random

theorem faultOf_eq_of_resultsAgree {α β : Type} {S : α → β → Prop} {result : Except Fault α}
    {result' : Except Fault β} (h : ResultsAgree S result result') :
    faultOf result = faultOf result' := by
  cases result with
  | ok a =>
      cases result' with
      | ok b => rfl
      | error fault' => exact h.elim
  | error fault =>
      cases result' with
      | ok b => exact h.elim
      | error fault' => exact congrArg some h

theorem pc_of_return {traced : Bool} {i : Instruction} (hmemory : machine.memory.Whole)
    (hstored : machine.stack.Stored) (hnext : machine.next? = some i)
    (hop : i.operation = .returnFromCall)
    (hok : (cycle traced machine).result = .ok ()) :
    machine.stack.live.getLast? = some (cycle traced machine).state.pc := by
  obtain ⟨hstate, hresult⟩ := cycle_of_next? hmemory traced hnext
  have hexecute : execute i traced machine.fetched
      = (onStack CallStack.pop >>= fun address => jumpTo address) traced machine.fetched := by
    rw [execute, Step.bind_of_ok rfl]
    simp only [Step.get_apply, hop, List.nil_append]
  rw [hresult, hexecute] at hok
  rw [hstate, hexecute]
  by_cases hempty : machine.stack.depth = 0
  · have hpop : (onStack CallStack.pop traced machine.fetched).result = .error .stackUnderflow := by
      rw [onStack, Step.on_apply]
      exact congrArg Outcome.result (CallStack.pop_of_empty hempty)
    rw [Step.bind_of_error hpop] at hok
    cases hok
  · obtain ⟨latest, hslot, hlive⟩ := CallStack.live_eq_popped_append hstored hempty
    have hpop : (onStack CallStack.pop traced machine.fetched).result = .ok latest := by
      rw [onStack, Step.on_apply]
      exact congrArg Outcome.result (CallStack.pop_of_slot hempty hslot)
    rw [Step.bind_of_ok hpop, hlive]
    simp [jumpTo]

/-- Machines that differ only in what is observed stay alike, traced or not, in every run; tracing
does not change a run at all, and no run returns to a stale address. -/
theorem stayAlike_of_alike (h : machine.Alike machine') (hmachine : machine.Whole)
    (hmachine' : machine'.Whole) :
    ∀ traced traced' commands, machine.StayAlike machine' traced traced' commands ∧
      machine.results traced commands = machine.results traced' commands ∧
      machine.after traced commands = machine.after traced' commands ∧
      machine.ReturnsToLive traced commands := by
  intro traced traced' commands
  obtain ⟨hresults, hstarts, hafter⟩ :=
    (h.resembles hmachine hmachine').run traced traced' Resemblance.transparent_unobserved commands
  obtain ⟨htracing, -, hreached⟩ := machine.run_eq_of_tracing traced traced' commands
  refine ⟨⟨?_, ?_, hafter.alike⟩, htracing, hreached, ?_⟩
  · rw [← List.forall₂_eq_eq_eq, List.forall₂_map_left_iff, List.forall₂_map_right_iff]
    exact hresults.imp fun _ _ hresult => faultOf_eq_of_resultsAgree hresult
  · exact hstarts.imp fun _ _ hstart => hstart.alike
  · have hpairs : List.Forall₂ (fun start start' =>
        (start.memory.Whole ∧ start.stack.Stored) ∧ start.Alike start')
        (machine.starts traced commands) (machine'.starts traced' commands) :=
      hstarts.imp fun _ _ hstart => ⟨⟨hstart.memory.2, hstart.stack.stored⟩, hstart.alike⟩
    intro start hstart i hnext hop hok
    obtain ⟨hmemory, hstored⟩ := ((List.forall₂_and_left _ _).mp hpairs).1 start hstart
    exact pc_of_return hmemory hstored hnext hop hok

/-- A machine that is beeping, has painted and keeps a stale return address, and one that has done
nothing of the kind. -/
theorem stayAlike_beeping :
    let quiet := powerOn 2 (.cycling #[7])
    let beeping := { quiet with
      timers := ⟨0, 9⟩
      opcode := 0x00EE
      display := { quiet.display with dirty := true }
      stack := ⟨2, #[0x1202, 0], 0⟩ }
    quiet.Alike beeping ∧ quiet.Whole ∧ beeping.Whole ∧
      quiet.StayAlike beeping false true [.frame 3, .load [0x00, 0xEE], .reset, .cycle] := by
  intro quiet beeping
  have halike : quiet.Alike beeping :=
    ⟨rfl, rfl, rfl, rfl, rfl, rfl, rfl, rfl, rfl, rfl, rfl, rfl, rfl, rfl⟩
  have hquiet : quiet.Whole := whole_powerOn 2 (.cycling #[7])
  have hbeeping : beeping.Whole := { hquiet with stored := ⟨rfl, Nat.zero_le 2⟩ }
  exact ⟨halike, hquiet, hbeeping, (stayAlike_of_alike halike hquiet hbeeping _ _ _).1⟩

end Machine

end ChipEight
