import ChipEight.Proofs.CycleLemmas

/-!
Runs of a machine under commands, in any order: programs are loaded, cycles and frames run, keys go
down and up, and a command that fails does not keep the next one from being carried out.
-/

namespace ChipEight

inductive Command where
  | load (program : List Int)
  | cycle
  | frame (count : Int)
  | tick
  | press (key : Int)
  | release (key : Int)
  | takeDirty
  | reset
  deriving DecidableEq

def Command.keepsProgram : Command → Bool
  | .load _ | .reset => false
  | _ => true

namespace Machine

/-- Carry out a command. A frame answers whether to paint, and so does the taking of the flag. -/
def perform : Command → Step Machine (Option Bool)
  | .load program => do
      load program
      pure none
  | .cycle => do
      cycle
      pure none
  | .frame count => do
      let dirty ← frame count
      pure (some dirty)
  | .tick => do
      Step.modify tick
      pure none
  | .press key => do
      onKeypad (Keypad.press key)
      pure none
  | .release key => do
      onKeypad (Keypad.release key)
      pure none
  | .takeDirty => do
      let dirty ← takeDirty
      pure (some dirty)
  | .reset => do
      Step.modify reset
      pure none

def after (machine : Machine) (traced : Bool) : List Command → Machine
  | [] => machine
  | command :: rest => after (perform command traced machine).state traced rest

/-- What the commands of a run answer, or the faults that end them. -/
def results (machine : Machine) (traced : Bool) : List Command → List (Except Fault (Option Bool))
  | [] => []
  | command :: rest =>
      (perform command traced machine).result ::
        results (perform command traced machine).state traced rest

/-- The states in which a number of cycles begin, up to the first that fails. -/
def cycleStarts (machine : Machine) (traced : Bool) : Nat → List Machine
  | 0 => []
  | count + 1 =>
      machine ::
        match (cycle traced machine).result with
        | .ok () => cycleStarts (cycle traced machine).state traced count
        | .error _ => []

/-- The states in which the cycles of a command begin. -/
def startsOf (machine : Machine) (traced : Bool) : Command → List Machine
  | .cycle => [machine]
  | .frame count => machine.cycleStarts traced count.toNat
  | _ => []

/-- The states in which the cycles of a run begin, in their order. -/
def starts (machine : Machine) (traced : Bool) : List Command → List Machine
  | [] => []
  | command :: rest =>
      machine.startsOf traced command ++ starts (perform command traced machine).state traced rest

variable {machine : Machine} {traced : Bool}

@[simp]
theorem state_perform_load (program : List Int) :
    (perform (.load program) traced machine).state = (load program traced machine).state :=
  Step.state_bind_pure _ _ traced machine

@[simp]
theorem state_perform_cycle :
    (perform .cycle traced machine).state = (cycle traced machine).state :=
  Step.state_bind_pure _ _ traced machine

@[simp]
theorem state_perform_frame (count : Int) :
    (perform (.frame count) traced machine).state = (frame count traced machine).state :=
  Step.state_bind_pure _ _ traced machine

@[simp]
theorem state_perform_press (key : Int) :
    (perform (.press key) traced machine).state
      = (onKeypad (Keypad.press key) traced machine).state :=
  Step.state_bind_pure _ _ traced machine

@[simp]
theorem state_perform_release (key : Int) :
    (perform (.release key) traced machine).state
      = (onKeypad (Keypad.release key) traced machine).state :=
  Step.state_bind_pure _ _ traced machine

theorem result_perform_frame {count : Int} {dirty : Bool}
    (hresult : (frame count traced machine).result = .ok dirty) :
    (perform (.frame count) traced machine).result = .ok (some dirty) := by
  rw [perform, Step.bind_of_ok hresult]
  rfl

theorem result_bind_none (step : Step Machine Unit) {dirty : Bool} :
    ((step >>= fun _ => pure none : Step Machine (Option Bool)) traced machine).result
      ≠ .ok (some dirty) := by
  cases hresult : (step traced machine).result with
  | error fault =>
      rw [Step.bind_of_error hresult]
      simp
  | ok done =>
      rw [Step.bind_of_ok hresult]
      simp

theorem after_append (machine : Machine) (traced : Bool) (first second : List Command) :
    machine.after traced (first ++ second)
      = (machine.after traced first).after traced second := by
  induction first generalizing machine with
  | nil => rfl
  | cons command rest ih => exact ih _

theorem starts_append (machine : Machine) (traced : Bool) (first second : List Command) :
    machine.starts traced (first ++ second)
      = machine.starts traced first ++ (machine.after traced first).starts traced second := by
  induction first generalizing machine with
  | nil => rfl
  | cons command rest ih => rw [List.cons_append, starts, starts, ih, List.append_assoc, after]

/-- Behind a program's first word `6XNN` stands its second one, with NN in VX. -/
theorem executes_behind_loadByte {memory : Memory} {program : Array UInt8} {high low : UInt8}
    (hmachine : machine.Whole) (x : Fin 16) {nn : Nat} (hnn : nn < 0x100)
    (hword : machine.Executes (0x6000 + 0x100 * x + nn)) (hwhole : memory.Whole)
    (hmemory : machine.memory = memory.install program) (hpc : machine.pc = programStart)
    (hsize : program.size ≤ programLimit) (hhigh : program[2]? = some high)
    (hlow : program[3]? = some low) :
    (machine.after traced [.cycle]).Executes (high.toNat <<< 8 ||| low.toNat) ∧
      (machine.after traced [.cycle]).pc = 0x202 ∧
      (machine.after traced [.cycle]).registers.get x = nn := by
  have hbyte : IsByte (nn : Int) := isByte_natCast (by omega)
  rw [after, after, state_perform_cycle, (cycle_of_loadByte hmachine traced x hnn hword).1]
  obtain ⟨hbehind, hpc'⟩ :=
    executes_behind 0 { machine.fetched with registers := machine.registers.written x nn }
      hwhole hmemory hpc hsize hhigh hlow rfl rfl hword.1
  refine ⟨hbehind, hpc', ?_⟩
  exact_mod_cast Registers.get_written_self hmachine.registers x hbyte

end Machine

end ChipEight
