import ChipEight.Proofs.FlagTaking
import ChipEight.Proofs.Footprint

/-!
Frames as a whole. A frame whose cycles all succeed ticks both timers once and takes the flag; one
with a cycle that fails stops behind it, with the timers and the flag as they are there. So the
delay timer counts the frames that were finished, whatever else was done.
-/

namespace ChipEight

theorem Timers.countDown_eq_max {ticks : Int} (hticks : 0 ≤ ticks) :
    countDown ticks = max (ticks - 1) 0 := by
  by_cases hpositive : 0 < ticks
  · rw [countDown, if_pos hpositive]
    omega
  · rw [countDown, if_neg hpositive]
    omega

theorem Instruction.delay_mem_writes_iff {i : Instruction} :
    .delay ∈ i.writes ↔ i.operation = .setDelay := by
  unfold Instruction.writes
  cases i.operation <;> simp [-List.map_take]

namespace Machine

/-- The machine behind a number of cycles, those that fail included. -/
def cycled (machine : Machine) (traced : Bool) : Nat → Machine
  | 0 => machine
  | count + 1 => cycled (cycle traced machine).state traced count

/-- The next cycle executes `FX15`. -/
def SetsDelay (machine : Machine) : Prop :=
  machine.awaiting = none ∧ machine.nextOpcode / 0x1000 = 0xF ∧ machine.nextOpcode % 0x100 = 0x15

def finishesFrame (machine : Machine) (traced : Bool) : Command → Bool
  | .frame count => (frame count traced machine).result.isOk
  | _ => false

def finishedFrames (machine : Machine) (traced : Bool) : List Command → Nat
  | [] => 0
  | command :: rest =>
      (machine.finishesFrame traced command).toNat +
        finishedFrames (perform command traced machine).state traced rest

variable {machine : Machine} {traced : Bool} {capacity : Int} {count k : Nat} {fault : Fault}

/-! ### Cycles in a row -/

theorem cycled_succ (machine : Machine) (traced : Bool) (k : Nat) :
    machine.cycled traced (k + 1) = (cycle traced (machine.cycled traced k)).state := by
  induction k generalizing machine with
  | zero => rfl
  | succ k ih => exact ih _

theorem sound_cycled (traced : Bool) (hmachine : machine.Sound capacity) (k : Nat) :
    (machine.cycled traced k).Sound capacity := by
  induction k with
  | zero => exact hmachine
  | succ k ih =>
      rw [cycled_succ]
      exact (keeps_sound_cycle traced _ ih).1

theorem cycles_add (hsucceed : ∀ j < k, (cycle traced (machine.cycled traced j)).result = .ok ())
    (rest : Nat) :
    (cycles (k + rest) traced machine).state
        = (cycles rest traced (machine.cycled traced k)).state ∧
      (cycles (k + rest) traced machine).result
        = (cycles rest traced (machine.cycled traced k)).result := by
  induction k generalizing machine with
  | zero => rw [Nat.zero_add]; exact ⟨rfl, rfl⟩
  | succ k ih =>
      have hfirst : (cycle traced machine).result = .ok () := hsucceed 0 (Nat.zero_lt_succ k)
      rw [Nat.succ_add, cycles, Step.bind_of_ok hfirst]
      exact ih fun j hj => hsucceed (j + 1) (Nat.succ_lt_succ hj)

theorem cycles_of_ok
    (hsucceed : ∀ j < count, (cycle traced (machine.cycled traced j)).result = .ok ()) :
    (cycles count traced machine).state = machine.cycled traced count ∧
      (cycles count traced machine).result = .ok () :=
  cycles_add hsucceed 0

theorem cycles_of_error (hk : k < count)
    (hsucceed : ∀ j < k, (cycle traced (machine.cycled traced j)).result = .ok ())
    (hfault : (cycle traced (machine.cycled traced k)).result = .error fault) :
    (cycles count traced machine).state = machine.cycled traced (k + 1) ∧
      (cycles count traced machine).result = .error fault := by
  obtain ⟨rest, rfl⟩ : ∃ rest, count = k + (rest + 1) := ⟨count - k - 1, by omega⟩
  obtain ⟨hstate, hresult⟩ := cycles_add hsucceed (rest + 1)
  rw [cycles, Step.bind_of_error hfault] at hstate hresult
  exact ⟨hstate.trans (cycled_succ machine traced k).symm, hresult⟩

/-! ### The flag -/

theorem dirty_cycle_iff (hmachine : machine.WellFormed) :
    (cycle traced machine).state.display.dirty = true ↔
      machine.display.dirty = true ∨ machine.Repaints := by
  have hdisplay := (cycle_turn traced hmachine).display
  by_cases hpaints : machine.Repaints
  · rw [if_pos hpaints] at hdisplay
    simp [hdisplay, hpaints]
  · rw [if_neg hpaints] at hdisplay
    simp [hdisplay, hpaints]

theorem dirty_cycled_iff (traced : Bool) (hmachine : machine.Sound capacity) (count : Nat) :
    (machine.cycled traced count).display.dirty = true ↔
      machine.display.dirty = true ∨ ∃ k < count, (machine.cycled traced k).Repaints := by
  induction count with
  | zero => simp [cycled]
  | succ count ih =>
      rw [cycled_succ, dirty_cycle_iff (sound_cycled traced hmachine count).1, ih,
        Nat.exists_lt_succ_right, or_assoc]

/-- Until something answers with the flag it stays up. -/
theorem dirty_after (hmachine : machine.Sound capacity) (hdirty : machine.display.dirty = true)
    {commands : List Command} (hreset : .reset ∉ commands)
    (hanswers : ∀ dirty, .ok (some dirty) ∉ machine.results traced commands) :
    (machine.after traced commands).display.dirty = true := by
  induction commands generalizing machine with
  | nil => exact hdirty
  | cons command rest ih =>
      simp only [results, List.mem_cons, not_or] at hanswers
      rw [List.mem_cons, not_or] at hreset
      refine ih (keeps_sound_perform command traced machine hmachine).1 ?_ hreset.2
        fun dirty => (hanswers dirty).2
      rcases marked_perform hmachine.1 (Ne.symm hreset.1) fun dirty => Ne.symm (hanswers dirty).1
        with hmarked | hsame
      · exact hmarked
      · rwa [hsame]

theorem answer_of_dirty (hmachine : machine.WellFormed) (hdirty : machine.display.dirty = true)
    {command : Command} {dirty : Bool}
    (hresult : (perform command traced machine).result = .ok (some dirty)) : dirty = true := by
  cases dirty with
  | true => rfl
  | false =>
      have hclean := (display_of_flag_down hmachine hresult).1
      rw [hdirty] at hclean
      cases hclean

/-! ### The delay timer -/

theorem delay_not_mem_writes (hset : ¬machine.SetsDelay) : .delay ∉ machine.writes := by
  cases hnext : machine.next? with
  | some i =>
      have hawaiting := awaiting_of_next? hnext
      simp only [writes_of_next? hnext, List.mem_cons, not_or, reduceCtorEq, not_false_eq_true,
        true_and, Instruction.delay_mem_writes_iff]
      rw [operation_of_next? hnext, Operation.ofWord_eq_setDelay_iff]
      exact fun hword => hset ⟨hawaiting, hword⟩
  | none =>
      obtain ⟨register, hawaiting⟩ := awaiting_of_next?_eq_none hnext
      simp [writes, hawaiting]

theorem delay_cycle (hmachine : machine.Whole) (traced : Bool) (hset : ¬machine.SetsDelay) :
    (cycle traced machine).state.timers.delay = machine.timers.delay := by
  have hsame : Part.delay.Same machine (cycle traced machine).state :=
    same_cycle hmachine traced (delay_not_mem_writes hset)
  exact hsame

theorem delay_cycles (hmachine : machine.WellFormed)
    (hset : ∀ start ∈ machine.cycleStarts traced count, ¬start.SetsDelay) :
    (cycles count traced machine).state.timers.delay = machine.timers.delay := by
  have hsame : Part.delay.Same machine (cycles count traced machine).state :=
    same_cycles hmachine.toWhole fun start hstart => delay_not_mem_writes (hset start hstart)
  exact hsame

theorem delay_perform (hmachine : machine.WellFormed) {command : Command}
    (hreset : command ≠ .reset) (htick : command ≠ .tick)
    (hset : ∀ start ∈ machine.startsOf traced command, ¬start.SetsDelay) :
    (perform command traced machine).state.timers.delay
      = max (machine.timers.delay - (machine.finishesFrame traced command).toNat) 0 := by
  have hdelay := hmachine.timers.delay.1
  have hkept : max (machine.timers.delay - (false.toNat : Int)) 0 = machine.timers.delay := by
    simp [hdelay]
  cases command with
  | load program =>
      rw [state_perform_load]
      exact hkept.symm
  | cycle =>
      have hfirst := hset machine (by simp [startsOf])
      rw [state_perform_cycle, delay_cycle hmachine.toWhole traced hfirst]
      exact hkept.symm
  | frame count =>
      have hcycles := delay_cycles hmachine hset
      rw [state_perform_frame, finishesFrame]
      cases hresult : (cycles count.toNat traced machine).result with
      | ok done =>
          obtain ⟨hstate, hanswer⟩ := frame_of_ok hresult
          rw [hstate, hanswer]
          calc
            Timers.countDown (cycles count.toNat traced machine).state.timers.delay
              = Timers.countDown machine.timers.delay := by rw [hcycles]
            _ = max (machine.timers.delay - 1) 0 := Timers.countDown_eq_max hdelay
      | error fault =>
          obtain ⟨hstate, hanswer⟩ := frame_of_error hresult
          rw [hstate, hanswer, hcycles]
          exact hkept.symm
  | tick => exact absurd rfl htick
  | press key =>
      rw [state_perform_press]
      exact hkept.symm
  | release key =>
      rw [state_perform_release]
      exact hkept.symm
  | takeDirty => exact hkept.symm
  | reset => exact absurd rfl hreset

/-- However the commands are mixed, the delay timer counts the frames that succeed. -/
theorem delay_after {commands : List Command} (hmachine : machine.Sound capacity)
    (hreset : .reset ∉ commands) (htick : .tick ∉ commands)
    (hset : ∀ start ∈ machine.starts traced commands, ¬start.SetsDelay) :
    (machine.after traced commands).timers.delay
      = max (machine.timers.delay - machine.finishedFrames traced commands) 0 := by
  induction commands generalizing machine with
  | nil =>
      have hdelay := hmachine.1.timers.delay.1
      simp [after, finishedFrames, hdelay]
  | cons command rest ih =>
      simp only [List.mem_cons, not_or] at hreset htick
      simp only [starts, List.mem_append] at hset
      have hreached := (keeps_sound_perform command traced machine hmachine).1
      have hfirst := delay_perform hmachine.1 (Ne.symm hreset.1) (Ne.symm htick.1)
        fun start hstart => hset start (.inl hstart)
      rw [after, ih hreached hreset.2 htick.2 fun start hstart => hset start (.inr hstart), hfirst,
        finishedFrames]
      omega

theorem finishedFrames_frames {counts : List Int}
    (hsucceed : ∀ fault, .error fault ∉ machine.results traced (counts.map .frame)) :
    machine.finishedFrames traced (counts.map .frame) = counts.length := by
  induction counts generalizing machine with
  | nil => rfl
  | cons count rest ih =>
      simp only [List.map_cons, results, List.mem_cons, not_or] at hsucceed
      rw [List.map_cons, finishedFrames, ih fun fault => (hsucceed fault).2, finishesFrame]
      cases hresult : (frame count traced machine).result with
      | error fault =>
          have hfailed : (perform (.frame count) traced machine).result = .error fault := by
            rw [perform, Step.bind_of_error hresult]
          exact absurd hfailed.symm (hsucceed fault).1
      | ok dirty => exact Nat.add_comm 1 rest.length

/-! ### The contract -/

/-- What a frame does, and what is left for later. -/
structure KeepsFrameContract (traced : Bool) (machine : Machine) (count : Int) : Prop where
  success : (∀ k < count.toNat, (cycle traced (machine.cycled traced k)).result = .ok ()) →
    let reached := machine.cycled traced count.toNat
    (frame count traced machine).state =
      { reached with
        timers := ⟨max (reached.timers.delay - 1) 0, max (reached.timers.sound - 1) 0⟩
        display := { reached.display with dirty := false } } ∧
    ∃ dirty, (frame count traced machine).result = .ok dirty ∧
      (dirty = true ↔ machine.display.dirty = true ∨
        ∃ k < count.toNat, (machine.cycled traced k).Repaints)
  failure : ∀ k < count.toNat, ∀ fault,
    (∀ j < k, (cycle traced (machine.cycled traced j)).result = .ok ()) →
    (cycle traced (machine.cycled traced k)).result = .error fault →
    (frame count traced machine).state = machine.cycled traced (k + 1) ∧
      (frame count traced machine).result = .error fault ∧
      ((frame count traced machine).state.display.dirty = true ↔
        machine.display.dirty = true ∨ ∃ j < k + 1, (machine.cycled traced j).Repaints)
  /-- What a frame that failed has painted is told by the next answer. -/
  told : ∀ fault, (frame count traced machine).result = .error fault →
    (frame count traced machine).state.display.dirty = true →
    ∀ between command dirty, .reset ∉ between →
    (∀ earlier, .ok (some earlier) ∉ (frame count traced machine).state.results traced between) →
    (perform command traced ((frame count traced machine).state.after traced between)).result
      = .ok (some dirty) →
    dirty = true

/-- Over any run without `FX15`, the delay timer goes down with the frames that succeed. -/
structure DelayCountsFrames (traced : Bool) (machine : Machine) : Prop where
  frames : ∀ counts : List Int,
    (∀ fault, .error fault ∉ machine.results traced (counts.map .frame)) →
    (∀ start ∈ machine.starts traced (counts.map .frame), ¬start.SetsDelay) →
    (machine.after traced (counts.map .frame)).timers.delay
      = max (machine.timers.delay - counts.length) 0
  /-- Other commands may stand between the frames, and frames may fail. -/
  mixed : ∀ commands, .reset ∉ commands → .tick ∉ commands →
    (∀ start ∈ machine.starts traced commands, ¬start.SetsDelay) →
    (machine.after traced commands).timers.delay
      = max (machine.timers.delay - machine.finishedFrames traced commands) 0

theorem delayCountsFrames_of_sound (traced : Bool) (hmachine : machine.Sound capacity) :
    machine.DelayCountsFrames traced where
  frames := by
    intro counts hsucceed hset
    rw [delay_after hmachine (by simp) (by simp) hset, finishedFrames_frames hsucceed]
  mixed := fun _ hreset htick hset => delay_after hmachine hreset htick hset

theorem keepsFrameContract_of_sound (traced : Bool) (hmachine : machine.Sound capacity)
    (count : Int) : machine.KeepsFrameContract traced count where
  success := by
    intro hsucceed reached
    have hreached := sound_cycled traced hmachine count.toNat
    obtain ⟨hcycles, hresult⟩ := cycles_of_ok hsucceed
    obtain ⟨hstate, hanswer⟩ := frame_of_ok hresult
    rw [hcycles] at hstate hanswer
    refine ⟨?_, reached.display.dirty, hanswer, dirty_cycled_iff traced hmachine count.toNat⟩
    rw [hstate, tick, Timers.tick, Timers.countDown_eq_max hreached.1.timers.delay.1,
      Timers.countDown_eq_max hreached.1.timers.sound.1]
  failure := by
    intro k hk fault hsucceed hfault
    obtain ⟨hcycles, hresult⟩ := cycles_of_error hk hsucceed hfault
    obtain ⟨hstate, hanswer⟩ := frame_of_error hresult
    rw [hcycles] at hstate
    refine ⟨hstate, hanswer, ?_⟩
    rw [hstate]
    exact dirty_cycled_iff traced hmachine (k + 1)
  told := by
    intro fault hfault hdirty between command dirty hreset hanswers hresult
    have hfailed := (keeps_sound_frame count traced machine hmachine).1
    exact answer_of_dirty (sound_after traced between hfailed).1
      (dirty_after hfailed hdirty hreset hanswers) hresult

/-- From any state that can be reached, every frame does all of it or stops at the first failure,
and the delay timer tells how many did all of it. -/
theorem frame_contract (traced : Bool) (capacity : Int) (random : RandomBytes)
    (commands : List Command) :
    let machine := (powerOn capacity random).after traced commands
    (∀ count, machine.KeepsFrameContract traced count) ∧ machine.DelayCountsFrames traced := by
  intro machine
  have hmachine : machine.Sound capacity := sound_after traced commands (sound_powerOn _ _)
  exact ⟨keepsFrameContract_of_sound traced hmachine, delayCountsFrames_of_sound traced hmachine⟩

end Machine

end ChipEight
