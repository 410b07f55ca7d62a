import ChipEight.Proofs.Masks

/-!
Accesses to a memory with all its cells never fail: reading leaves it as it is, and writing changes
the cells that the addresses name and no others. A traced access says something if its address lies
above the memory.
-/

namespace ChipEight

theorem Note.line_outOfRange (address : Int) :
    (outOfRange address).line =
      s!"memory access out of range at 0x{Hex.padded 4 address}, wrapped to "
        ++ s!"0x{Hex.padded 3 (address % 0x1000)}" := by
  rw [← Bits.mask_addressMask]
  rfl

theorem Byte.ofInts?_eq (values : List Int) :
    ofInts? values =
      if ∀ value ∈ values, IsByte value then
        .ok (values.map fun value => UInt8.ofNat value.toNat)
      else .error .notAByte := by
  induction values with
  | nil => simp [ofInts?]
  | cons value rest ih =>
      by_cases hvalue : IsByte value
      · have hfirst := ofInt?_of_le hvalue.1 hvalue.2
        by_cases hrest : ∀ other ∈ rest, IsByte other
        · rw [if_pos hrest] at ih
          rw [if_pos (List.forall_mem_cons.mpr ⟨hvalue, hrest⟩)]
          simp only [ofInts?, hfirst, ih, List.map_cons]
        · rw [if_neg hrest] at ih
          rw [if_neg fun hall => hrest (List.forall_mem_cons.mp hall).2]
          simp only [ofInts?, hfirst, ih]
      · have hfirst : ofInt? value = .error .notAByte := ofInt?_eq_error_iff.mpr ⟨hvalue, rfl⟩
        rw [if_neg fun hall => hvalue (List.forall_mem_cons.mp hall).1]
        simp only [ofInts?, hfirst]

namespace Memory

/-- No cell is missing, and none is too many. -/
def Whole (memory : Memory) : Prop :=
  memory.cells.size = memorySize

instance (memory : Memory) : Decidable memory.Whole :=
  inferInstanceAs (Decidable (memory.cells.size = memorySize))

def get (memory : Memory) (address : Int) : UInt8 :=
  (memory.cells[cellOf address]?).getD 0

def set (memory : Memory) (address value : Int) : Memory :=
  ⟨memory.cells.setIfInBounds (cellOf address) (UInt8.ofNat (Bits.mask value byteMask))⟩

variable (address : Int) (traced : Bool) {memory : Memory}

theorem cellOf_lt_size (hmemory : memory.Whole) : cellOf address < memory.cells.size := by
  rw [hmemory]
  exact cellOf_lt address

@[simp]
theorem whole_set_iff {value : Int} : (memory.set address value).Whole ↔ memory.Whole := by
  rw [Whole, set, Array.size_setIfInBounds, Whole]

def addressesFrom (address : Int) (count : Nat) : List Int :=
  (List.range count).map fun k : Nat => address + k

/-- What is to be written down about the use of some addresses. -/
def strays (addresses : List Int) : List Note :=
  (addresses.filter fun address : Int => addressMask < address).map .outOfRange

/-- The lines about those of some addresses that lie above the memory. -/
def strayLines (addresses : List Int) : List String :=
  (addresses.filter fun address => 0xFFF < address).map fun address =>
    s!"memory access out of range at 0x{Hex.padded 4 address}, wrapped to "
      ++ s!"0x{Hex.padded 3 (address % 0x1000)}"

theorem map_line_strays (addresses : List Int) :
    (strays addresses).map Note.line = strayLines addresses := by
  rw [strays, strayLines, List.map_map]
  apply List.map_congr_left
  intro address _
  rw [Function.comp_apply, Note.line_outOfRange]

theorem addressesFrom_succ (count : Nat) :
    addressesFrom address (count + 1) = address :: addressesFrom (address + 1) count := by
  rw [addressesFrom, List.range_succ_eq_map, List.map_cons, List.map_map, Nat.cast_zero,
    Int.add_zero]
  congr 1
  apply List.map_congr_left
  intro k _
  rw [Function.comp_apply, Nat.cast_succ, Int.add_assoc, Int.add_comm 1]

/-- Of accesses one after the other, the first is written down first. -/
theorem strays_cons (rest : List Int) :
    (if traced then strays (address :: rest) else [])
      = (if traced then strays [address] else []) ++ if traced then strays rest else [] := by
  cases traced with
  | false => rfl
  | true =>
      simp only [if_true, strays]
      rw [← List.map_append, ← List.filter_append, List.singleton_append]

theorem checkAddress_eq (memory : Memory) :
    checkAddress address traced memory
      = ⟨memory, if traced then strays [address] else [], .ok ()⟩ := by
  by_cases habove : addressMask < address
  · simp [checkAddress, strays, habove]
  · simp [checkAddress, strays, habove]

theorem read_eq (hmemory : memory.Whole) :
    read address traced memory
      = ⟨memory, if traced then strays [address] else [], .ok (memory.get address)⟩ := by
  have hcell := cellOf_lt_size address hmemory
  simp [read, checkAddress_eq, Store.item_of_lt hcell, get, hcell]

theorem write_eq (hmemory : memory.Whole) (value : Int) :
    write address value traced memory
      = ⟨memory.set address value, if traced then strays [address] else [], .ok ()⟩ := by
  have hassign := Store.assignByte_of_lt (cellOf_lt_size address hmemory) (Bits.isByte_mask value)
  simp [write, checkAddress_eq, hassign, set]

def block (memory : Memory) (address : Int) : Nat → List UInt8
  | 0 => []
  | count + 1 => memory.get address :: memory.block (address + 1) count

@[simp]
theorem length_block (count : Nat) : (memory.block address count).length = count := by
  induction count generalizing address with
  | zero => rfl
  | succ count ih => rw [block, List.length_cons, ih]

theorem block_eq_map (count : Nat) :
    memory.block address count
      = (List.range count).map fun k : Nat => memory.get (address + k) := by
  have hblock : memory.block address count = (addressesFrom address count).map memory.get := by
    induction count generalizing address with
    | zero => rfl
    | succ count ih => rw [block, ih, addressesFrom_succ, List.map_cons]
  rw [hblock, addressesFrom, List.map_map]
  rfl

/-- The memory after some values have been written from an address on. -/
def stored (memory : Memory) (address : Int) : List Int → Memory
  | [] => memory
  | value :: rest => (memory.set address value).stored (address + 1) rest

@[simp]
theorem whole_stored_iff {values : List Int} :
    (memory.stored address values).Whole ↔ memory.Whole := by
  induction values generalizing address memory with
  | nil => rfl
  | cons value rest ih => rw [stored, ih, whole_set_iff]

theorem readFrom_eq (hmemory : memory.Whole) (count : Nat) :
    readFrom address count traced memory
      = ⟨memory, if traced then strays (addressesFrom address count) else [],
        .ok (memory.block address count)⟩ := by
  induction count generalizing address with
  | zero => simp [readFrom, addressesFrom, strays, block]
  | succ count ih =>
      rw [addressesFrom_succ, strays_cons]
      simp [readFrom, read_eq address traced hmemory, ih, block]

theorem writeFrom_eq (hmemory : memory.Whole) (values : List Int) :
    writeFrom address values traced memory
      = ⟨memory.stored address values,
        if traced then strays (addressesFrom address values.length) else [], .ok ()⟩ := by
  induction values generalizing address memory with
  | nil => simp [writeFrom, addressesFrom, strays, stored]
  | cons value rest ih =>
      rw [List.length_cons, addressesFrom_succ, strays_cons]
      have hset : (memory.set address value).Whole := (whole_set_iff address).mpr hmemory
      have hrest := ih (address + 1) hset
      simp [writeFrom, write_eq address traced hmemory, hrest, stored]

/-! ### Reading behind a write -/

variable {address}

theorem get_congr {other : Int} (h : address ≡ other [ZMOD 0x1000]) :
    memory.get address = memory.get other := by
  simp only [get, cellOf_eq_iff.mpr h]

theorem get_set_same (hmemory : memory.Whole) {other : Int} (value : Int)
    (h : address ≡ other [ZMOD 0x1000]) :
    ((memory.set address value).get other).toNat = value % 0x100 := by
  have hcell := cellOf_lt_size address hmemory
  have hbyte := Bits.isByte_mask value
  rw [get_congr h.symm, ← Bits.mask_byteMask, get, set,
    Array.getElem?_setIfInBounds_self_of_lt hcell, Option.getD_some, UInt8.toNat_ofNat']
  omega

theorem get_set_other {other : Int} (value : Int) (h : ¬address ≡ other [ZMOD 0x1000]) :
    (memory.set address value).get other = memory.get other := by
  have hcells : cellOf address ≠ cellOf other := fun heq => h (cellOf_eq_iff.mp heq)
  rw [get, set, Array.getElem?_setIfInBounds_ne hcells, get]

/-! ### The font and the program -/

theorem cellOf_natCast {cell : Nat} (hcell : cell < memorySize) : cellOf cell = cell := by
  have hmask := Bits.mask_addressMask cell
  simp only [cellOf, memorySize] at *
  omega

variable {program : Array UInt8}

/-- A program that fits takes the place of as many cells as it has bytes. -/
theorem whole_install (hmemory : memory.Whole) (hsize : program.size ≤ programLimit) :
    (memory.install program).Whole := by
  have hsplice : (memory.install program).cells.size = memory.cells.size :=
    Store.size_splice (Nat.le_add_right _ _)
      (by rw [hmemory]; simp only [programLimit, memorySize, programStart] at *; omega)
      (by omega)
  exact hsplice.trans hmemory

theorem get_install (hmemory : memory.Whole) {k : Nat} (hk : k < program.size)
    (hsize : program.size ≤ programLimit) :
    (memory.install program).get (programStart + k : Nat) = program[k] := by
  have hstart : programStart ≤ memory.cells.size := by
    rw [hmemory]
    decide
  have hcell : programStart + k < memorySize := by
    simp only [programLimit, memorySize, programStart] at *
    omega
  rw [get, cellOf_natCast hcell, install, Store.getElem?_splice_within hstart hk,
    Array.getElem?_eq_getElem hk, Option.getD_some]

theorem get_install_above (hmemory : memory.Whole) {k : Nat} (hk : k < programLimit)
    (habove : program.size ≤ k) :
    (memory.install program).get (programStart + k : Nat)
      = memory.get (programStart + k : Nat) := by
  have hcell : programStart + k < memorySize := by
    simp only [programLimit, memorySize, programStart] at *
    omega
  rw [get, get, cellOf_natCast hcell, install,
    Store.getElem?_splice_above (Nat.le_add_right _ _) (by rw [hmemory]; omega) (by omega)
      (by omega)]

theorem get_install_below (hmemory : memory.Whole) (program : Array UInt8) {address : Int}
    (hlower : 0 ≤ address) (hbelow : address < programStart) :
    (memory.install program).get address = memory.get address := by
  have hmask := Bits.mask_addressMask address
  have hstart : programStart ≤ memory.cells.size := by
    rw [hmemory]
    decide
  have hcell : cellOf address < programStart := by
    simp only [cellOf, programStart] at *
    omega
  rw [get, get, install, Store.getElem?_splice_below hstart hcell]

theorem whole_initial : initial.Whole := by
  have hsplice : initial.cells.size = (Array.replicate memorySize (0 : UInt8)).size :=
    Store.size_splice (by decide) (by rw [Array.size_replicate]; decide) rfl
  exact hsplice.trans Array.size_replicate

theorem getElem?_cells_initial {k : Nat} (hk : k < memorySize) :
    initial.cells[k]? = some ((fontSprites[k]?).getD 0) := by
  by_cases hfont : k < fontSprites.length
  · have hwithin : initial.cells[fontStart + k]? = fontSprites.toArray[k]? :=
      Store.getElem?_splice_within (Nat.zero_le _) (by simpa using hfont)
    rw [fontStart, Nat.zero_add] at hwithin
    rw [hwithin, List.getElem?_toArray, List.getElem?_eq_getElem hfont, Option.getD_some]
  · have habove : fontStart + fontSprites.length ≤ k := by
      rw [fontStart]
      omega
    rw [initial, Store.getElem?_splice_above (Nat.le_add_right _ _)
      (by rw [Array.size_replicate]; decide) (by simp) habove,
      List.getElem?_eq_none (Nat.le_of_not_lt hfont)]
    simp [hk]

theorem get_initial {k : Nat} (hk : k < fontSprites.length) :
    initial.get k = fontSprites[k] := by
  have hcell : k < memorySize := Nat.lt_trans hk (by decide)
  rw [get, cellOf_natCast hcell, getElem?_cells_initial hcell, List.getElem?_eq_getElem hk]
  rfl

theorem get_initial_above {k : Nat} (hk : k < programLimit) :
    initial.get (programStart + k : Nat) = 0 := by
  have hcell : programStart + k < memorySize := by
    simp only [programLimit, memorySize, programStart] at *
    omega
  have habove : fontSprites.length ≤ programStart + k :=
    Nat.le_trans (by decide) (Nat.le_add_right programStart k)
  rw [get, cellOf_natCast hcell, getElem?_cells_initial hcell, List.getElem?_eq_none habove]
  rfl

/-! ### Loading -/

def Loadable (program : List Int) : Prop :=
  program.length ≤ programLimit ∧ ∀ value ∈ program, IsByte value

instance (program : List Int) : Decidable (Loadable program) :=
  inferInstanceAs (Decidable (_ ∧ _))

theorem load_of_loadable {program : List Int} (hloadable : Loadable program) (traced : Bool) :
    load program traced memory =
      ⟨memory.install (program.map fun value => UInt8.ofNat value.toNat).toArray,
        if traced then [.loaded program.length] else [], .ok ()⟩ := by
  rw [load, if_neg (Nat.not_lt.mpr hloadable.1), Byte.ofInts?_eq, if_pos hloadable.2]
  rfl

/-- That a program is too long is found out before its values are looked at. -/
theorem load_of_not_loadable {program : List Int} (hnot : ¬Loadable program) (traced : Bool) :
    load program traced memory =
      ⟨memory, [], .error (if programLimit < program.length then .programTooLong program.length
        else .notAByte)⟩ := by
  by_cases hlong : programLimit < program.length
  · rw [load, if_pos hlong, if_pos hlong]
    rfl
  · have hbytes : ¬∀ value ∈ program, IsByte value := fun hall =>
      hnot ⟨Nat.le_of_not_lt hlong, hall⟩
    rw [load, if_neg hlong, if_neg hlong, Byte.ofInts?_eq, if_neg hbytes]
    rfl

/-- A program that fits leaves as many cells as there were, and any other leaves them alone. -/
theorem whole_load (hmemory : memory.Whole) (program : List Int) (traced : Bool) :
    (load program traced memory).state.Whole := by
  by_cases hloadable : Loadable program
  · rw [load_of_loadable hloadable]
    exact whole_install hmemory (by simpa using hloadable.1)
  · rw [load_of_not_loadable hloadable]
    exact hmemory

/-! ### Blocks -/

theorem get_stored_beside {values : List Int} {other : Int}
    (hbeside : ∀ k < values.length, ¬address + k ≡ other [ZMOD 0x1000]) :
    (memory.stored address values).get other = memory.get other := by
  induction values generalizing address memory with
  | nil => rfl
  | cons value rest ih =>
      have hfirst : ¬address ≡ other [ZMOD 0x1000] := by
        simpa using hbeside 0 (Nat.zero_lt_succ rest.length)
      have hrest : ∀ k < rest.length, ¬address + 1 + k ≡ other [ZMOD 0x1000] := by
        intro k hk
        have hnext := hbeside (k + 1) (Nat.succ_lt_succ hk)
        rwa [Nat.cast_succ, Int.add_comm (k : Int), ← Int.add_assoc] at hnext
      rw [stored, ih hrest, get_set_other value hfirst]

theorem get_stored_within (hmemory : memory.Whole) {values : List Int}
    (hlength : values.length ≤ memorySize) {k : Nat} (hk : k < values.length) :
    ((memory.stored address values).get (address + k)).toNat = values[k] % 0x100 := by
  induction values generalizing address memory k with
  | nil => simp at hk
  | cons value rest ih =>
      rw [List.length_cons] at hlength
      cases k with
      | zero =>
          have hbeside : ∀ j < rest.length, ¬address + 1 + j ≡ address [ZMOD 0x1000] := by
            intro j hj
            simp only [memorySize, Int.ModEq] at hlength ⊢
            omega
          simp only [stored, Nat.cast_zero, Int.add_zero, List.getElem_cons_zero]
          rw [get_stored_beside hbeside, get_set_same hmemory value (Int.ModEq.refl address)]
      | succ k =>
          have hplace : address + ((k + 1 : Nat) : Int) = address + 1 + k := by omega
          rw [stored, hplace, ih ((whole_set_iff address).mpr hmemory) (Nat.le_of_succ_le hlength)
            (Nat.lt_of_succ_lt_succ hk), List.getElem_cons_succ]

end Memory

end ChipEight
