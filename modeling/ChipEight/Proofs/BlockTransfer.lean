import ChipEight.Proofs.ReadSet
import Mathlib.Data.List.Nodup

/-!
Blocks that move between the first registers and the memory at I. A block is no longer than the
memory, so its cells are apart even where it wraps around; what is stored therefore comes back when
it is loaded, and what has been loaded changes nothing when it is stored. The decimal digits of a
register are such a block of three.
-/

namespace ChipEight

namespace Memory

variable {memory : Memory} {address : Int} {count : Nat}

/-- A block that is no longer than the memory does not come back to a cell. -/
theorem nodup_span (address : Int) (hcount : count ≤ memorySize) : (span address count).Nodup := by
  apply List.Nodup.map_on _ List.nodup_range
  intro j hj k hk hcell
  rw [List.mem_range] at hj hk
  simp only [memorySize] at hcount
  omega

theorem set_get (memory : Memory) (address : Int) :
    memory.set address (memory.get address).toNat = memory := by
  have hmask : Bits.mask (memory.get address).toNat byteMask = (memory.get address).toNat := by
    have hlt := (memory.get address).toNat_lt
    have hmod := Bits.mask_byteMask (memory.get address).toNat
    omega
  have hcells : memory.cells.setIfInBounds (cellOf address) (memory.get address)
      = memory.cells := by
    by_cases hcell : cellOf address < memory.cells.size
    · rw [get, Array.getElem?_eq_getElem hcell, Option.getD_some, Array.setIfInBounds_def,
        dif_pos hcell, Array.set_getElem_self]
    · exact Array.setIfInBounds_eq_of_size_le (Nat.le_of_not_lt hcell)
  rw [set, hmask, UInt8.ofNat_toNat, hcells]

/-- Values that are there already can be stored without a change. -/
theorem stored_block (memory : Memory) (address : Int) (count : Nat) :
    memory.stored address ((memory.block address count).map fun byte => (byte.toNat : Int))
      = memory := by
  induction count generalizing address with
  | zero => rfl
  | succ count ih => rw [block, List.map_cons, stored, set_get, ih]

end Memory

namespace Registers

variable {registers : Registers} {memory : Memory} {address : Int} {x y : Fin 16}

theorem get_filled_block (hregisters : registers.Whole) (hy : y ≤ x) :
    (registers.filled 0 (memory.block address (x + 1))).get y
      = (memory.get ((address + y) % 0x1000)).toNat := by
  have hplace : (address + y) % 0x1000 ≡ address + y [ZMOD 0x1000] := Int.mod_modEq _ _
  have hlt : y.val < x.val + 1 := by omega
  rw [Memory.get_congr hplace, get_filled hregisters]
  simp [Memory.block_eq_map, hlt]

theorem get_filled_beyond (hregisters : registers.Whole) (hy : x < y) :
    (registers.filled 0 (memory.block address (x + 1))).get y = registers.get y := by
  have hbeyond : (memory.block address (x + 1))[y.val]? = none := by
    rw [List.getElem?_eq_none_iff, Memory.length_block]
    omega
  rw [get_filled hregisters]
  simp [hbeyond]

theorem getElem_first {count : Nat} (hy : y.val < (registers.first count).length) :
    (registers.first count)[y.val] = registers.get y := by
  simp [first]

end Registers

namespace Machine

/-- `FX55`, which stores V0 to VX. -/
def storeWord (x : Fin 16) : Nat :=
  0xF055 + 0x100 * x

/-- `FX65`, which loads V0 to VX. -/
def loadWord (x : Fin 16) : Nat :=
  0xF065 + 0x100 * x

/-- `FX33`, which stores the decimal digits of VX. -/
def decimalWord (x : Fin 16) : Nat :=
  0xF033 + 0x100 * x

/-- How a machine comes to another one by a word: the word is executed, by itself or in the cycle
that fetches it. -/
inductive Comes (traced : Bool) (word : Nat) (machine : Machine) : Machine → Prop
  | executed : Comes traced word machine (execute (.decode word) traced machine).state
  | fetched (hword : machine.Executes word) :
      Comes traced word machine (cycle traced machine).state

/-- The laws of the blocks at I. Between two instructions the machine may become any other one with
the same I, as long as the block is the same. -/
structure KeepsBlocks (traced : Bool) (machine : Machine) (x : Fin 16) : Prop where
  storedThenLoaded : ∀ stored later loaded : Machine, later.Whole →
    machine.Comes traced (storeWord x) stored → later.index = machine.index →
    (∀ cell ∈ Memory.span machine.index (x + 1), later.memory.get cell = stored.memory.get cell) →
    later.Comes traced (loadWord x) loaded →
    (∀ y ≤ x, loaded.registers.get y = machine.registers.get y) ∧
      ∀ y > x, loaded.registers.get y = later.registers.get y
  loadedThenStored : ∀ loaded later stored : Machine, later.Whole →
    machine.Comes traced (loadWord x) loaded → later.index = machine.index →
    later.memory = machine.memory → (∀ y ≤ x, later.registers.get y = loaded.registers.get y) →
    later.Comes traced (storeWord x) stored →
    stored.memory = machine.memory
  decimalThenLoaded : ∀ stored later loaded : Machine, later.Whole →
    machine.Comes traced (decimalWord x) stored → later.index = machine.index →
    (∀ cell ∈ Memory.span machine.index 3, later.memory.get cell = stored.memory.get cell) →
    later.Comes traced (loadWord 2) loaded →
    100 * loaded.registers.get 0 + 10 * loaded.registers.get 1 + loaded.registers.get 2
        = machine.registers.get x ∧
      loaded.registers.get 0 ≤ 9 ∧ loaded.registers.get 1 ≤ 9 ∧ loaded.registers.get 2 ≤ 9
  keepsIndex : ∀ word ∈ [decimalWord x, storeWord x, loadWord x], ∀ after : Machine,
    machine.Comes traced word after → after.index = machine.index
  apart : (Memory.span machine.index (x + 1)).Nodup ∧ (Memory.span machine.index 3).Nodup
  storesInside : ∀ stored : Machine, machine.Comes traced (storeWord x) stored →
    ∀ other, other % 0x1000 ∉ Memory.span machine.index (x + 1) →
      stored.memory.get other = machine.memory.get other
  decimalInside : ∀ stored : Machine, machine.Comes traced (decimalWord x) stored →
    ∀ other, other % 0x1000 ∉ Memory.span machine.index 3 →
      stored.memory.get other = machine.memory.get other
  loadsOnly : ∀ loaded : Machine, machine.Comes traced (loadWord x) loaded →
    loaded.memory = machine.memory
  succeeds : ∀ word ∈ [decimalWord x, storeWord x, loadWord x],
    (execute (.decode word) traced machine).result = .ok ()

variable {traced : Bool} {machine after : Machine} {i : Instruction} {word : Nat} {x : Fin 16}

/-! ### Executing -/

theorem decode_of_F (low : Nat) (hlow : low < 0x100) (x : Fin 16) :
    (Instruction.decode (0xF000 + low + 0x100 * x : Nat)).operation = .ofWord (0xF000 + low) ∧
      (Instruction.decode (0xF000 + low + 0x100 * x : Nat)).x = x := by
  have hword : 0xF000 + low + 0x100 * x = 0x1000 * 0xF + 0x100 * x + low := by omega
  obtain ⟨hop, hx, -⟩ := Instruction.decode_low (by decide) hlow hword
  exact ⟨hop, hx⟩

theorem decode_storeWord (x : Fin 16) :
    (Instruction.decode (storeWord x)).operation = .storeRegisters ∧
      (Instruction.decode (storeWord x)).x = x :=
  decode_of_F 0x55 (by decide) x

theorem decode_loadWord (x : Fin 16) :
    (Instruction.decode (loadWord x)).operation = .loadRegisters ∧
      (Instruction.decode (loadWord x)).x = x :=
  decode_of_F 0x65 (by decide) x

theorem decode_decimalWord (x : Fin 16) :
    (Instruction.decode (decimalWord x)).operation = .storeDecimal ∧
      (Instruction.decode (decimalWord x)).x = x :=
  decode_of_F 0x33 (by decide) x

theorem result_execute_of_stores (hmachine : machine.Whole) (traced : Bool)
    (hop : i.operation = .storeDecimal ∨ i.operation = .storeRegisters) :
    (execute i traced machine).result = .ok () := by
  have hwrite : ∀ values,
      (onMemory (Memory.writeFrom machine.index values) traced machine).result = .ok () := by
    intro values
    have hwrite := Memory.writeFrom_eq machine.index traced hmachine.memory values
    rw [onMemory, Step.on_apply, hwrite]
  rcases hop with hop | hop
  · simp only [execute, Step.get_bind, hop, value_bind hmachine.registers]
    exact hwrite _
  · simp only [execute, Step.get_bind, hop, storeRegisters_eq hmachine.registers]
    exact hwrite _

theorem execute_of_loads (hmachine : machine.Whole) (traced : Bool)
    (hop : i.operation = .loadRegisters) :
    execute i traced machine =
      ⟨{ machine with registers :=
          machine.registers.filled 0 (machine.memory.block machine.index (i.x + 1)) },
        if traced then Memory.strays (Memory.addressesFrom machine.index (i.x + 1)) else [],
        .ok ()⟩ := by
  simp only [execute, Step.get_bind, hop, loadRegisters_eq hmachine]

theorem Comes.exists_execute (hmachine : machine.Whole) (h : machine.Comes traced word after) :
    ∃ start : Machine, start.Whole ∧ start.memory = machine.memory ∧
      start.index = machine.index ∧ start.registers = machine.registers ∧
      after = (execute (.decode word) traced start).state := by
  cases h with
  | executed => exact ⟨machine, hmachine, rfl, rfl, rfl, rfl⟩
  | fetched hword =>
      obtain ⟨hstate, -⟩ := cycle_of_next? hmachine.memory traced hword.next?
      exact ⟨machine.fetched, whole_fetched hmachine, rfl, rfl, rfl, hstate⟩

theorem Comes.whole (hmachine : machine.Whole) (h : machine.Comes traced word after) :
    after.Whole := by
  obtain ⟨start, hstart, -, -, -, rfl⟩ := h.exists_execute hmachine
  exact keepsWhole_execute _ traced start hstart

theorem Comes.index_eq (hmachine : machine.Whole) (h : machine.Comes traced word after)
    (hwrites : .index ∉ (Instruction.decode word).writes) : after.index = machine.index := by
  obtain ⟨start, -, -, hindex, -, rfl⟩ := h.exists_execute hmachine
  have hsame : Part.index.Same start (execute (.decode word) traced start).state :=
    touches_execute _ traced start .index (by simp [not_mem_steers, hwrites])
  exact Eq.trans hsame hindex

theorem Comes.memory_eq (hmachine : machine.Whole) (h : machine.Comes traced word after) :
    after.memory = machine.memory.stored machine.index
      (((Instruction.decode word).stored machine.registers).map Nat.cast) := by
  obtain ⟨start, hstart, hmemory, hindex, hregisters, rfl⟩ := h.exists_execute hmachine
  rw [memory_execute hstart, hmemory, hindex, hregisters]

theorem Comes.registers_of_loadWord (hmachine : machine.Whole)
    (h : machine.Comes traced (loadWord x) after) :
    after.registers
      = machine.registers.filled 0 (machine.memory.block machine.index (x + 1)) := by
  obtain ⟨hop, hx⟩ := decode_loadWord x
  obtain ⟨start, hstart, hmemory, hindex, hregisters, rfl⟩ := h.exists_execute hmachine
  rw [execute_of_loads hstart traced hop, hx, hmemory, hindex, hregisters]

/-! ### The two blocks -/

theorem Comes.memory_of_storeWord (hmachine : machine.Whole)
    (h : machine.Comes traced (storeWord x) after) :
    after.memory = machine.memory.stored machine.index
      ((machine.registers.first (x + 1)).map Nat.cast) := by
  obtain ⟨hop, hx⟩ := decode_storeWord x
  rw [h.memory_eq hmachine, Instruction.stored, hop, hx]

theorem Comes.memory_of_decimalWord (hmachine : machine.Whole)
    (h : machine.Comes traced (decimalWord x) after) :
    after.memory = machine.memory.stored machine.index
      ([machine.registers.get x / 100, machine.registers.get x / 10 % 10,
        machine.registers.get x % 10].map Nat.cast) := by
  obtain ⟨hop, hx⟩ := decode_decimalWord x
  rw [h.memory_eq hmachine, Instruction.stored, hop, hx]

theorem Comes.memory_of_loadWord (hmachine : machine.Whole)
    (h : machine.Comes traced (loadWord x) after) : after.memory = machine.memory := by
  rw [h.memory_eq hmachine, Instruction.stored, (decode_loadWord x).1]
  rfl

/-- Loading brings back values that have been stored at I and are still there. -/
theorem Comes.get_of_stored {later loaded : Machine} {memory : Memory} {values : List Nat}
    {y : Fin 16} (hlater : later.Whole) (hmemory : memory.Whole)
    (h : later.Comes traced (loadWord x) loaded) (hy : y ≤ x)
    (hvalues : ∀ value ∈ values, value ≤ 0xFF) (hlength : values.length = x + 1)
    (hsame : ∀ cell ∈ Memory.span later.index (x + 1),
      later.memory.get cell = (memory.stored later.index (values.map Nat.cast)).get cell) :
    loaded.registers.get y = values[y.val] := by
  have hy' : y.val < values.length := by omega
  have hfits : values.length ≤ memorySize := by
    simp only [memorySize]
    omega
  have hcell : (later.index + y) % 0x1000 ∈ Memory.span later.index (x + 1) :=
    Memory.mem_span_iff.mpr ⟨y, by omega, rfl⟩
  rw [h.registers_of_loadWord hlater, Registers.get_filled_block hlater.registers hy,
    hsame _ hcell]
  exact (overwritten_stored hmemory hvalues hfits).written y hy'

/-! ### The laws -/

theorem get_of_storedWord {stored later loaded : Machine} (hmachine : machine.Whole)
    (hlater : later.Whole) (hstored : machine.Comes traced (storeWord x) stored)
    (hindex : later.index = machine.index)
    (hsame : ∀ cell ∈ Memory.span machine.index (x + 1),
      later.memory.get cell = stored.memory.get cell)
    (hloaded : later.Comes traced (loadWord x) loaded) {y : Fin 16} (hy : y ≤ x) :
    loaded.registers.get y = machine.registers.get y := by
  have hbytes : ∀ value ∈ machine.registers.first (x + 1), value ≤ 0xFF := by
    intro value hvalue
    obtain ⟨z, -, rfl⟩ := List.mem_map.mp hvalue
    exact machine.registers.get_le z
  have hlength := machine.registers.length_first x.isLt
  rw [hstored.memory_of_storeWord hmachine, ← hindex] at hsame
  rw [hloaded.get_of_stored hlater hmachine.memory hy hbytes hlength hsame,
    Registers.getElem_first]

theorem memory_of_loadedWord {loaded later stored : Machine} (hmachine : machine.Whole)
    (hlater : later.Whole) (hloaded : machine.Comes traced (loadWord x) loaded)
    (hindex : later.index = machine.index) (hmemory : later.memory = machine.memory)
    (hregisters : ∀ y ≤ x, later.registers.get y = loaded.registers.get y)
    (hstored : later.Comes traced (storeWord x) stored) : stored.memory = machine.memory := by
  have hvalues : (later.registers.first (x + 1)).map (Nat.cast : Nat → Int) =
      (machine.memory.block machine.index (x + 1)).map fun byte => (byte.toNat : Int) := by
    apply List.ext_getElem
    · simp [later.registers.length_first x.isLt]
    · intro k hk _
      rw [List.length_map, later.registers.length_first x.isLt] at hk
      obtain ⟨y, rfl⟩ : ∃ y : Fin 16, y.val = k := ⟨⟨k, by omega⟩, rfl⟩
      have hy : y ≤ x := by omega
      have hplace : (machine.index + y) % 0x1000 ≡ machine.index + y [ZMOD 0x1000] :=
        Int.mod_modEq _ _
      rw [List.getElem_map, Registers.getElem_first, hregisters y hy,
        hloaded.registers_of_loadWord hmachine,
        Registers.get_filled_block hmachine.registers hy, Memory.get_congr hplace]
      simp [Memory.block_eq_map]
  rw [hstored.memory_of_storeWord hlater, hvalues, hindex, hmemory, Memory.stored_block]

theorem digits_of_decimalWord {stored later loaded : Machine} (hmachine : machine.Whole)
    (hlater : later.Whole) (hstored : machine.Comes traced (decimalWord x) stored)
    (hindex : later.index = machine.index)
    (hsame : ∀ cell ∈ Memory.span machine.index 3, later.memory.get cell = stored.memory.get cell)
    (hloaded : later.Comes traced (loadWord 2) loaded) :
    loaded.registers.get 0 = machine.registers.get x / 100 ∧
      loaded.registers.get 1 = machine.registers.get x / 10 % 10 ∧
      loaded.registers.get 2 = machine.registers.get x % 10 := by
  have hvalue := machine.registers.get_le x
  have hbytes : ∀ value ∈ [machine.registers.get x / 100, machine.registers.get x / 10 % 10,
      machine.registers.get x % 10], value ≤ 0xFF := by
    intro value hmem
    simp only [List.mem_cons, List.not_mem_nil, or_false] at hmem
    omega
  have hmemory := hmachine.memory
  rw [hstored.memory_of_decimalWord hmachine, ← hindex] at hsame
  exact ⟨hloaded.get_of_stored (y := 0) hlater hmemory (by decide) hbytes rfl hsame,
    hloaded.get_of_stored (y := 1) hlater hmemory (by decide) hbytes rfl hsame,
    hloaded.get_of_stored (y := 2) hlater hmemory (by decide) hbytes rfl hsame⟩

/-- Whatever the registers, the memory and I hold, blocks keep their laws. -/
theorem block_transfer (hmachine : machine.Whole) (traced : Bool) (x : Fin 16) :
    machine.KeepsBlocks traced x where
  storedThenLoaded := by
    intro stored later loaded hlater hstored hindex hsame hloaded
    refine ⟨fun y hy => ?_, fun y hy => ?_⟩
    · exact get_of_storedWord hmachine hlater hstored hindex hsame hloaded hy
    · rw [hloaded.registers_of_loadWord hlater, Registers.get_filled_beyond hlater.registers hy]
  loadedThenStored := fun _ _ _ hlater hloaded hindex hmemory hregisters hstored =>
    memory_of_loadedWord hmachine hlater hloaded hindex hmemory hregisters hstored
  decimalThenLoaded := by
    intro stored later loaded hlater hstored hindex hsame hloaded
    have hvalue := machine.registers.get_le x
    obtain ⟨hhundreds, htens, hones⟩ :=
      digits_of_decimalWord hmachine hlater hstored hindex hsame hloaded
    omega
  keepsIndex := by
    intro word hword after hafter
    simp only [List.mem_cons, List.not_mem_nil, or_false] at hword
    refine hafter.index_eq hmachine ?_
    rcases hword with rfl | rfl | rfl
    · simp [Instruction.writes, decode_decimalWord]
    · simp [Instruction.writes, decode_storeWord]
    · simp [Instruction.writes, decode_loadWord, -List.map_take]
  apart :=
    ⟨Memory.nodup_span _ (by simp only [memorySize]; omega), Memory.nodup_span _ (by decide)⟩
  storesInside := by
    intro stored hstored other hother
    rw [hstored.memory_of_storeWord hmachine]
    apply Memory.get_stored_of_not_mem
    rwa [List.length_map, machine.registers.length_first x.isLt]
  decimalInside := by
    intro stored hstored other hother
    rw [hstored.memory_of_decimalWord hmachine]
    exact Memory.get_stored_of_not_mem hother
  loadsOnly := fun loaded hloaded => hloaded.memory_of_loadWord hmachine
  succeeds := by
    intro word hword
    simp only [List.mem_cons, List.not_mem_nil, or_false] at hword
    rcases hword with rfl | rfl | rfl
    · exact result_execute_of_stores hmachine traced (.inl (decode_decimalWord x).1)
    · exact result_execute_of_stores hmachine traced (.inr (decode_storeWord x).1)
    · rw [execute_of_loads hmachine traced (decode_loadWord x).1]

/-- A block that wraps around the memory, with the registers cleared in between. -/
theorem block_transfer_wrapped :
    let machine :=
      { powerOn 16 (.cycling #[]) with
        index := 0xFFFE
        registers := (Registers.zero.written 0 200).written 3 7 }
    let stored := (execute (.decode (storeWord 3)) false machine).state
    let loaded :=
      (execute (.decode (loadWord 3)) false { stored with registers := .zero }).state
    machine.Whole ∧ loaded.registers.get 0 = 200 ∧ loaded.registers.get 3 = 7 ∧
      (Memory.span machine.index 4) = [0xFFE, 0xFFF, 0x000, 0x001] := by
  intro machine stored loaded
  have hmachine : machine.Whole :=
    { whole_powerOn 16 (.cycling #[]) with
      registers := Registers.whole_written_iff.mpr
        (Registers.whole_written_iff.mpr Registers.whole_zero) }
  have hlaws := block_transfer hmachine false 3
  -- For any such machines: these ones are not to be computed.
  have hback : ∀ stored loaded : Machine, machine.Comes false (storeWord 3) stored →
      { stored with registers := .zero }.Comes false (loadWord 3) loaded →
      ∀ y ≤ 3, loaded.registers.get y = machine.registers.get y := by
    intro stored loaded hstored hloaded
    have hindex : stored.index = machine.index := hlaws.keepsIndex _ (by simp) stored hstored
    have hcleared : { stored with registers := .zero }.Whole :=
      { hstored.whole hmachine with registers := Registers.whole_zero }
    exact (hlaws.storedThenLoaded stored { stored with registers := .zero } loaded hcleared hstored
      hindex (fun _ _ => rfl) hloaded).1
  refine ⟨hmachine, ?_, ?_, by decide⟩
  · rw [hback stored loaded .executed .executed 0 (by decide)]
    decide
  · rw [hback stored loaded .executed .executed 3 (by decide)]
    decide

end Machine

end ChipEight
