import ChipEight.Proofs.Commands
import Mathlib.Data.List.Induction

/-!
Programs loaded one after the other. A program that fits and consists of bytes is loaded as a whole,
any other not at all, so above the start of the programs each cell holds what the last loaded
program that reaches it has there, and nothing else is touched.
-/

namespace ChipEight

namespace Memory

/-- Element `i` of the last of some programs that can be loaded and are longer than `i`. -/
def lastLoaded? (programs : List (List Int)) (i : Nat) : Option Int :=
  (programs.filter fun program => Loadable program ∧ i < program.length).getLast?.bind (·[i]?)

variable {program : List Int} {memory : Memory}

theorem get_load_below (hmemory : memory.Whole) (program : List Int) (traced : Bool)
    {address : Int} (hlower : 0 ≤ address) (hbelow : address < programStart) :
    (load program traced memory).state.get address = memory.get address := by
  by_cases hloadable : Loadable program
  · rw [load_of_loadable hloadable]
    exact get_install_below hmemory _ hlower hbelow
  · rw [load_of_not_loadable hloadable]

theorem get_load_above (hmemory : memory.Whole) (program : List Int) (traced : Bool) {i : Nat}
    (hi : i < programLimit) (habove : ¬(Loadable program ∧ i < program.length)) :
    (load program traced memory).state.get (programStart + i : Nat)
      = memory.get (programStart + i : Nat) := by
  by_cases hloadable : Loadable program
  · have hlength : program.length ≤ i := Nat.le_of_not_lt fun hlt => habove ⟨hloadable, hlt⟩
    rw [load_of_loadable hloadable]
    exact get_install_above hmemory hi (by simpa using hlength)
  · rw [load_of_not_loadable hloadable]

theorem get_load_within (hmemory : memory.Whole) (hloadable : Loadable program) (traced : Bool)
    {i : Nat} (hi : i < program.length) :
    ((load program traced memory).state.get (programStart + i : Nat)).toNat = program[i] := by
  have hsize : i < (program.map fun value => UInt8.ofNat value.toNat).toArray.size := by
    simpa using hi
  have hbyte := hloadable.2 program[i] (List.getElem_mem hi)
  rw [load_of_loadable hloadable, get_install hmemory hsize (by simpa using hloadable.1)]
  simp only [List.getElem_toArray, List.getElem_map, UInt8.toNat_ofNat']
  omega

/-- One more program decides about the elements that it reaches, if it can be loaded. -/
theorem lastLoaded?_concat (programs : List (List Int)) (program : List Int) (i : Nat) :
    lastLoaded? (programs ++ [program]) i =
      if Loadable program ∧ i < program.length then program[i]? else lastLoaded? programs i := by
  rw [lastLoaded?, List.filter_append]
  by_cases hlast : Loadable program ∧ i < program.length
  · rw [if_pos hlast, List.filter_cons_of_pos (by simpa using hlast), List.filter_nil,
      List.getLast?_concat]
    rfl
  · rw [if_neg hlast, List.filter_cons_of_neg (by simpa using hlast), List.filter_nil,
      List.append_nil]
    rfl

end Memory

namespace Machine

/-- A machine behind programs that were loaded one after the other. -/
abbrev afterLoads (machine : Machine) (traced : Bool) (programs : List (List Int)) : Machine :=
  machine.after traced (programs.map .load)

variable {machine : Machine} {traced : Bool}

theorem after_load (program : List Int) :
    machine.after traced [.load program] =
      { machine with memory := (Memory.load program traced machine.memory).state } := by
  rw [after, after, state_perform_load, load, onMemory, Step.on_apply]

theorem afterLoads_concat (programs : List (List Int)) (program : List Int) :
    machine.afterLoads traced (programs ++ [program])
      = (machine.afterLoads traced programs).after traced [.load program] := by
  rw [afterLoads, List.map_append, after_append]
  rfl

theorem afterLoads_eq (programs : List (List Int)) :
    machine.afterLoads traced programs =
      { machine with memory := (machine.afterLoads traced programs).memory } := by
  induction programs using List.reverseRecOn with
  | nil => rfl
  | append_singleton programs program ih => rw [afterLoads_concat, after_load, ih]

theorem whole_afterLoads (hmemory : machine.memory.Whole) (programs : List (List Int)) :
    (machine.afterLoads traced programs).memory.Whole := by
  induction programs using List.reverseRecOn with
  | nil => exact hmemory
  | append_singleton programs program ih =>
      rw [afterLoads_concat, after_load]
      exact Memory.whole_load ih program traced

theorem get_afterLoads_below (hmemory : machine.memory.Whole) (programs : List (List Int))
    {address : Int} (hlower : 0 ≤ address) (hbelow : address < programStart) :
    (machine.afterLoads traced programs).memory.get address = machine.memory.get address := by
  induction programs using List.reverseRecOn with
  | nil => rfl
  | append_singleton programs program ih =>
      rw [afterLoads_concat, after_load, ← ih]
      exact Memory.get_load_below (whole_afterLoads hmemory programs) program traced hlower hbelow

theorem get_afterLoads (hmemory : machine.memory.Whole) (programs : List (List Int)) {i : Nat}
    (hi : i < programLimit) :
    ((machine.afterLoads traced programs).memory.get (programStart + i : Nat)).toNat
      = (Memory.lastLoaded? programs i).getD
          (machine.memory.get (programStart + i : Nat)).toNat := by
  induction programs using List.reverseRecOn with
  | nil => rfl
  | append_singleton programs program ih =>
      have hbefore : (machine.afterLoads traced programs).memory.Whole :=
        whole_afterLoads hmemory programs
      rw [afterLoads_concat, after_load, Memory.lastLoaded?_concat]
      by_cases hlast : Memory.Loadable program ∧ i < program.length
      · rw [if_pos hlast, List.getElem?_eq_getElem hlast.2, Option.getD_some]
        exact Memory.get_load_within hbefore hlast.1 traced hlast.2
      · rw [if_neg hlast, ← ih]
        exact congrArg (fun byte : UInt8 => (byte.toNat : Int))
          (Memory.get_load_above hbefore program traced hi hlast)

theorem result_load (program : List Int) :
    (load program traced machine).result =
      if Memory.Loadable program then .ok ()
      else .error (if programLimit < program.length then .programTooLong program.length
        else .notAByte) := by
  rw [load, onMemory, Step.on_apply]
  by_cases hloadable : Memory.Loadable program
  · rw [if_pos hloadable, Memory.load_of_loadable hloadable]
  · rw [if_neg hloadable, Memory.load_of_not_loadable hloadable]

theorem result_load_eq_ok_iff {program : List Int} :
    (load program traced machine).result = .ok () ↔ Memory.Loadable program := by
  rw [result_load]
  by_cases hloadable : Memory.Loadable program
  · simp [hloadable]
  · simp [hloadable]

theorem result_load_eq_tooLong_iff {program : List Int} :
    (load program traced machine).result = .error (.programTooLong program.length) ↔
      programLimit < program.length := by
  rw [result_load]
  by_cases hloadable : Memory.Loadable program
  · simp [hloadable, hloadable.1]
  · by_cases hlong : programLimit < program.length
    · simp [hloadable, hlong]
    · simp [hloadable, hlong]

theorem result_load_eq_notAByte_iff {program : List Int} :
    (load program traced machine).result = .error .notAByte ↔
      program.length ≤ programLimit ∧ ∃ value ∈ program, ¬IsByte value := by
  have hbytes : (∃ value ∈ program, ¬IsByte value) ↔ ¬∀ value ∈ program, IsByte value := by
    push Not
    rfl
  rw [result_load, hbytes]
  by_cases hloadable : Memory.Loadable program
  · rw [if_pos hloadable]
    exact iff_of_false (by simp) fun hnot => hnot.2 hloadable.2
  · by_cases hlong : programLimit < program.length
    · simp [hloadable, hlong]
    · have hfits : program.length ≤ programLimit := Nat.le_of_not_lt hlong
      have hvalues : ¬∀ value ∈ program, IsByte value := fun hall => hloadable ⟨hfits, hall⟩
      simp only [if_neg hloadable, if_neg hlong, hfits, hvalues, not_false_eq_true, and_self]

theorem state_load_of_error {program : List Int} {fault : Fault}
    (hfault : (load program traced machine).result = .error fault) :
    (load program traced machine).state = machine := by
  by_cases hloadable : Memory.Loadable program
  · rw [result_load, if_pos hloadable] at hfault
    cases hfault
  · rw [load, onMemory, Step.on_apply, Memory.load_of_not_loadable hloadable]

/-- What becomes of a machine by programs that are loaded one after the other, and of the next
program. -/
structure LoadsExactly (traced : Bool) (machine : Machine) (programs : List (List Int)) : Prop where
  tooLong : ∀ program,
    (load program traced (machine.afterLoads traced programs)).result
      = .error (.programTooLong program.length) ↔ programLimit < program.length
  notAByte : ∀ program,
    (load program traced (machine.afterLoads traced programs)).result = .error .notAByte ↔
      program.length ≤ programLimit ∧ ∃ value ∈ program, ¬IsByte value
  succeeds : ∀ program,
    (load program traced (machine.afterLoads traced programs)).result = .ok () ↔
      Memory.Loadable program
  atomic : ∀ program fault,
    (load program traced (machine.afterLoads traced programs)).result = .error fault →
    (load program traced (machine.afterLoads traced programs)).state
      = machine.afterLoads traced programs
  size : (machine.afterLoads traced programs).memory.cells.size = memorySize
  loaded : ∀ i < programLimit,
    ((machine.afterLoads traced programs).memory.get (programStart + i : Nat)).toNat
      = (Memory.lastLoaded? programs i).getD 0
  below : ∀ address : Nat, address < programStart →
    (machine.afterLoads traced programs).memory.get address = Memory.initial.get address
  kept : machine.afterLoads traced programs =
    { machine with memory := (machine.afterLoads traced programs).memory }

/-- However many programs are loaded into a fresh machine, the next one is refused as a whole if it
is too long or, else, not of bytes, and the memory shows of the earlier ones what the last of them
has at each place that it reaches. -/
theorem loads_exactly (traced : Bool) (capacity : Int) (random : RandomBytes)
    (programs : List (List Int)) : (powerOn capacity random).LoadsExactly traced programs where
  tooLong _ := result_load_eq_tooLong_iff
  notAByte _ := result_load_eq_notAByte_iff
  succeeds _ := result_load_eq_ok_iff
  atomic _ _ := state_load_of_error
  size := whole_afterLoads (whole_powerOn capacity random).memory programs
  loaded i hi := by
    have hzero : (powerOn capacity random).memory.get (programStart + i : Nat) = 0 :=
      Memory.get_initial_above hi
    rw [get_afterLoads (whole_powerOn capacity random).memory programs hi, hzero]
    rfl
  below address hbelow :=
    get_afterLoads_below (whole_powerOn capacity random).memory programs
      (Int.natCast_nonneg address) (Int.ofNat_lt.mpr hbelow)
  kept := afterLoads_eq programs

end Machine

end ChipEight
