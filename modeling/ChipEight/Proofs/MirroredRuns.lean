import ChipEight.Proofs.Mirror

/-!
Runs of mirrored machines. That addresses name the same cells is a resemblance, so mirrored machines
go through the same runs.
-/

namespace ChipEight

namespace Machine

/-- Two machines answer every run of commands alike, fetch the same instructions in it, and stay
mirrored. -/
def RunsLike (machine machine' : Machine) : Prop :=
  ∀ traced traced' commands,
    machine.results traced commands = machine'.results traced' commands ∧
      (machine.starts traced commands).map next? = (machine'.starts traced' commands).map next? ∧
      (machine.after traced commands).Mirrored (machine'.after traced' commands)

def narrowed (machine : Machine) : Machine :=
  { machine with
    pc := machine.pc % 0x1000
    index := machine.index % 0x1000
    stack := { machine.stack with slots := machine.stack.slots.map (· % 0x1000) } }

theorem Aligned.runsLike {machine machine' : Machine} (h : machine.Aligned machine') :
    machine.RunsLike machine' := by
  intro traced traced' commands
  obtain ⟨hresults, hstarts, hafter⟩ :=
    h.resembles.run traced traced' Resemblance.transparent_mirrored commands
  refine ⟨?_, ?_, hafter.mirrored⟩
  · rw [← List.forall₂_eq_eq_eq]
    exact hresults.imp fun _ _ hresult => eq_of_resultsAgree hresult
  · rw [← List.forall₂_eq_eq_eq, List.forall₂_map_left_iff, List.forall₂_map_right_iff]
    exact hstarts.imp fun _ _ hstart => hstart.mirrored.next?_eq

theorem aligned_narrowed {machine : Machine} (hstored : machine.stack.Stored) :
    machine.Aligned machine.narrowed where
  mirrored :=
    { Mirrored.refl machine with
      pc := (Int.mod_modEq machine.pc 0x1000).symm
      index := (Int.mod_modEq machine.index 0x1000).symm
      stack :=
        { capacity := rfl
          depth := rfl
          live := by
            have hlive : machine.narrowed.stack.live = machine.stack.live.map (· % 0x1000) := by
              simp [narrowed, CallStack.live, List.map_take]
            rw [hlive, List.forall₂_map_right_iff, List.forall₂_same]
            intro address _
            exact (Int.mod_modEq address 0x1000).symm } }
  stored := hstored
  stored' :=
    { size_eq := by
        simp only [narrowed, Array.size_map]
        exact hstored.size_eq
      depth_le := by
        simp only [narrowed, Array.size_map]
        exact hstored.depth_le }

/-- Machines whose addresses agree in the lowest twelve bits run alike; so does, in particular, a
machine whose addresses are cut to twelve bits. -/
theorem runsLike_of_mirrored {machine machine' : Machine} (hmirrored : machine.Mirrored machine')
    (hstored : machine.stack.Stored) (hstored' : machine'.stack.Stored) :
    machine.RunsLike machine' ∧ machine.RunsLike machine.narrowed :=
  ⟨Aligned.runsLike ⟨hmirrored, hstored, hstored'⟩, (aligned_narrowed hstored).runsLike⟩

/-- A machine that has run past the end of the memory, inside a call from there, and one that is at
the same cells below. -/
theorem runsLike_of_mirrored_past_memory :
    let start := powerOn 2 (.cycling #[7])
    let high := { start with pc := 0x1204, index := 0xF300, stack := ⟨2, #[0x1202, 5], 1⟩ }
    let low := { start with pc := 0x204, index := 0x300, stack := ⟨2, #[0x202, 0], 1⟩ }
    high.Mirrored low ∧ high.stack.Stored ∧ low.stack.Stored ∧ high.RunsLike low := by
  intro start high low
  have hstack : high.stack.Mirrored low.stack := ⟨rfl, rfl, .cons (by decide) .nil⟩
  have hmirrored : high.Mirrored low :=
    { Mirrored.refl start with
      pc := by decide
      index := by decide
      stack := hstack }
  have hstored : high.stack.Stored := by decide
  have hstored' : low.stack.Stored := by decide
  exact ⟨hmirrored, hstored, hstored', (runsLike_of_mirrored hmirrored hstored hstored').1⟩

end Machine

end ChipEight
