import ChipEight.Proofs.Safety

/-!
The dirty flag over frames. Only two operations touch the cells of the display, and both put the
flag up; so a run of cycles that leaves the flag down leaves the cells alone.
-/

namespace ChipEight

/-- Whether an operation touches the display. -/
def Operation.paints : Operation → Bool
  | .clearScreen | .draw => true
  | _ => false

theorem Operation.paints_of_not_mem {operation : Operation}
    (hop : operation ∉ [.clearScreen, .draw, .call, .returnFromCall]) :
    operation.paints = false := by
  cases operation with
  | clearScreen => simp at hop
  | draw => simp at hop
  | _ => rfl

theorem Operation.paints_iff {operation : Operation} :
    operation.paints = true ↔ operation = .clearScreen ∨ operation = .draw := by
  cases operation <;> simp [paints]

namespace Machine

/-- The next cycle executes `00E0` or `DXYN`. -/
def Repaints (machine : Machine) : Prop :=
  machine.awaiting = none ∧ (machine.nextOpcode = 0x00E0 ∨ machine.nextOpcode / 0x1000 = 0xD)

instance : DecidablePred Repaints := fun machine =>
  inferInstanceAs (Decidable (machine.awaiting = none ∧
    (machine.nextOpcode = 0x00E0 ∨ machine.nextOpcode / 0x1000 = 0xD)))

variable {machine after : Machine} {result : Except Fault Unit} {traced : Bool}

theorem repaints_iff {i : Instruction} (hnext : machine.next? = some i) :
    machine.Repaints ↔ i.operation.paints = true := by
  rw [Operation.paints_iff, operation_of_next? hnext, Operation.ofWord_eq_clearScreen_iff,
    Operation.ofWord_eq_draw_iff]
  simp [Repaints, awaiting_of_next? hnext]

theorem not_repaints_of_next?_eq_none (hnext : machine.next? = none) : ¬machine.Repaints := by
  obtain ⟨register, hawaiting⟩ := awaiting_of_next?_eq_none hnext
  simp [Repaints, hawaiting]

theorem display_fetched : machine.fetched.display = machine.display := rfl

theorem Transition.display {i : Instruction} (h : Transition i machine after result) :
    if i.operation.paints then after.display.dirty = true
    else after.display = machine.display := by
  cases h with
  | compute registers pc index timers random hop hregisters hpc hindex htimers =>
      simp [Operation.paints_of_not_mem hop]
  | store memory hop hmemory => simp [Operation.paints_of_not_mem hop]
  | suspend hop => simp [hop, Operation.paints]
  | clear hop => simp [hop, Operation.paints, Display.clear]
  | draw registers cells hop hregisters hsize hbits => simp [hop, Operation.paints]
  | call hop hroom => simp [hop, Operation.paints]
  | «return» latest hop hlive => simp [hop, Operation.paints]
  | overflow hop hfull => simp [hop, Operation.paints]
  | underflow hop hempty => simp [hop, Operation.paints]

/-- A cycle that does not paint leaves the display as it is; one that does puts the flag up. -/
theorem Turn.display (h : Turn machine after result) :
    if machine.Repaints then after.display.dirty = true else after.display = machine.display := by
  cases h with
  | execute i hnext hexecute =>
      have hdisplay := hexecute.display
      rw [display_fetched] at hdisplay
      simpa only [repaints_iff hnext] using hdisplay
  | poll hnext => rw [if_neg (not_repaints_of_next?_eq_none hnext)]
  | resume registers hnext hregisters => rw [if_neg (not_repaints_of_next?_eq_none hnext)]

/-- Cycles that succeed keep a machine well-formed. If one of them paints, the flag is up in the
end; if none does, the display is as it was. -/
theorem display_cycles (hmachine : machine.WellFormed) (count : Nat)
    (hresult : (cycles count traced machine).result = .ok ()) :
    (cycles count traced machine).state.WellFormed ∧
      if ∃ start ∈ machine.cycleStarts traced count, start.Repaints then
        (cycles count traced machine).state.display.dirty = true
      else (cycles count traced machine).state.display = machine.display := by
  induction count generalizing machine with
  | zero => exact ⟨hmachine, by simp [cycleStarts, cycles]⟩
  | succ count ih =>
      have hturn := cycle_turn traced hmachine
      cases hcycle : (cycle traced machine).result with
      | error fault =>
          rw [cycles, Step.bind_of_error hcycle] at hresult
          cases hresult
      | ok done =>
          rw [cycles, Step.bind_of_ok hcycle] at hresult ⊢
          obtain ⟨hreached, hrest⟩ := ih (hturn.wellFormed hmachine) hresult
          refine ⟨hreached, ?_⟩
          have hfirst := hturn.display
          simp only [cycleStarts, hcycle, List.mem_cons, exists_eq_or_imp]
          by_cases hlater :
              ∃ start ∈ (cycle traced machine).state.cycleStarts traced count, start.Repaints
          · rw [if_pos hlater] at hrest
            rw [if_pos (.inr hlater)]
            exact hrest
          · rw [if_neg hlater] at hrest
            simp only [hlater, or_false]
            rw [hrest]
            exact hfirst

/-- A frame that succeeds takes the flag down and answers whether it was up: before the frame, or
because some cycle painted. Where it was not, the display is as it was. -/
theorem display_frame (hmachine : machine.WellFormed) {count : Int} {dirty : Bool}
    (hresult : (frame count traced machine).result = .ok dirty) :
    (frame count traced machine).state.WellFormed ∧
      (frame count traced machine).state.display.dirty = false ∧
      (dirty = true ↔ machine.display.dirty = true ∨
        ∃ start ∈ machine.cycleStarts traced count.toNat, start.Repaints) ∧
      (dirty = false → (frame count traced machine).state.display = machine.display) := by
  have hsound := (keeps_sound_frame count traced machine ⟨hmachine, rfl⟩).1
  cases hcycles : (cycles count.toNat traced machine).result with
  | error fault =>
      rw [(frame_of_error hcycles).2] at hresult
      cases hresult
  | ok done =>
      obtain ⟨hstate, hanswer⟩ := frame_of_ok hcycles
      obtain ⟨-, hdisplay⟩ := display_cycles hmachine count.toNat hcycles
      rw [hanswer, Except.ok.injEq] at hresult
      refine ⟨hsound.1, by rw [hstate], ?_⟩
      rw [hstate, ← hresult]
      by_cases hpainted : ∃ start ∈ machine.cycleStarts traced count.toNat, start.Repaints
      · rw [if_pos hpainted] at hdisplay
        simp [hdisplay, hpainted]
      · rw [if_neg hpainted] at hdisplay
        rw [hdisplay]
        refine ⟨by simp [hpainted], fun hclean => ?_⟩
        rw [← hclean]

end Machine

end ChipEight
