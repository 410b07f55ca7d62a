import ChipEight.Registers
import ChipEight.Proofs.Masks
import Mathlib.Data.List.FinRange

/-!
Accesses to registers none of which is missing. Reading never fails and leaves the registers as they
are; putting a byte into a register changes no other one.
-/

namespace ChipEight

theorem isByte_natCast {n : Nat} (hn : n ≤ 0xFF) : IsByte (n : Int) := by
  omega

theorem isByte_toNat (byte : UInt8) : IsByte byte.toNat :=
  isByte_natCast (Nat.le_of_lt_succ byte.toNat_lt)

namespace Registers

def Whole (registers : Registers) : Prop :=
  registers.bytes.size = registerCount

instance (registers : Registers) : Decidable registers.Whole :=
  inferInstanceAs (Decidable (registers.bytes.size = registerCount))

def get (registers : Registers) (x : Fin 16) : Nat :=
  ((registers.bytes[x.val]?).getD 0).toNat

/-- The registers after a byte has been put into one of them. -/
def written (registers : Registers) (x : Fin 16) (value : Int) : Registers :=
  ⟨registers.bytes.setIfInBounds x.val (UInt8.ofNat value.toNat)⟩

variable {registers : Registers} {x y : Fin 16} {traced : Bool}

theorem val_lt_size (hregisters : registers.Whole) (x : Fin 16) : x.val < registers.bytes.size := by
  rw [hregisters]
  exact x.isLt

theorem whole_zero : zero.Whole :=
  Array.size_replicate

@[simp]
theorem whole_written_iff {value : Int} : (registers.written x value).Whole ↔ registers.Whole := by
  rw [Whole, written, Array.size_setIfInBounds, Whole]

theorem get_le (registers : Registers) (x : Fin 16) : registers.get x ≤ 0xFF :=
  Nat.le_of_lt_succ ((registers.bytes[x.val]?).getD 0).toNat_lt

theorem value_eq (hregisters : registers.Whole) (x : Fin 16) :
    value x.val traced registers = ⟨registers, [], .ok (registers.get x)⟩ := by
  have hplace := val_lt_size hregisters x
  simp [value, Store.item_of_lt hplace, get, hplace]

theorem put_eq (hregisters : registers.Whole) (x : Fin 16) {value : Int} (hvalue : IsByte value) :
    put x.val value traced registers = ⟨registers.written x value, [], .ok ()⟩ := by
  simp [put, Store.assignByte_of_lt (val_lt_size hregisters x) hvalue, written]

theorem get_written_self (hregisters : registers.Whole) (x : Fin 16) {value : Int}
    (hvalue : IsByte value) : ((registers.written x value).get x : Int) = value := by
  have hlt : value.toNat < UInt8.size := by
    simp only [UInt8.size]
    omega
  rw [get, written, Array.getElem?_setIfInBounds_self_of_lt (val_lt_size hregisters x),
    Option.getD_some, UInt8.toNat_ofNat_of_lt' hlt]
  exact Int.toNat_of_nonneg hvalue.1

@[simp]
theorem get_written_of_ne (registers : Registers) (value : Int) (hne : x ≠ y) :
    (registers.written x value).get y = registers.get y := by
  have hplaces : x.val ≠ y.val := fun heq => hne (Fin.ext heq)
  rw [get, written, Array.getElem?_setIfInBounds_ne hplaces, get]

@[simp]
theorem written_written (registers : Registers) (x : Fin 16) (value value' : Int) :
    (registers.written x value).written x value' = registers.written x value' := by
  rw [written, written, Array.setIfInBounds_setIfInBounds, written]

theorem get_written_flag (hregisters : registers.Whole) (flag : Bool) :
    (registers.written flagRegister (if flag then 1 else 0)).get flagRegister = flag.toNat := by
  cases flag with
  | false => exact_mod_cast get_written_self hregisters flagRegister (by decide : IsByte 0)
  | true => exact_mod_cast get_written_self hregisters flagRegister (by decide : IsByte 1)

/-! ### Several registers at once -/

def first (registers : Registers) (count : Nat) : List Nat :=
  ((List.finRange 16).take count).map registers.get

theorem length_first {count : Nat} (hcount : count ≤ 16) :
    (registers.first count).length = count := by
  rw [first, List.length_map, List.length_take, List.length_finRange]
  exact Nat.min_eq_left hcount

theorem valuesFrom_eq (hregisters : registers.Whole) {k count : Nat} (hcount : k + count ≤ 16) :
    valuesFrom k count traced registers
      = ⟨registers, [], .ok ((((List.finRange 16).drop k).take count).map registers.get)⟩ := by
  induction count generalizing k with
  | zero => rfl
  | succ count ih =>
      have hplace : k < (List.finRange 16).length := by
        rw [List.length_finRange]
        omega
      have hfirst : value k traced registers = ⟨registers, [], .ok (registers.get ⟨k, _⟩)⟩ :=
        value_eq hregisters ⟨k, by omega⟩
      have hrest := ih (by omega : k + 1 + count ≤ 16)
      rw [Nat.cast_succ] at hrest
      rw [List.drop_eq_getElem_cons hplace, List.take_succ_cons, List.map_cons,
        List.getElem_finRange]
      simp [valuesFrom, hfirst, hrest]

theorem valuesFrom_zero_eq (hregisters : registers.Whole) {count : Nat} (hcount : count ≤ 16) :
    valuesFrom 0 count traced registers = ⟨registers, [], .ok (registers.first count)⟩ := by
  have hvalues : valuesFrom (0 : Nat) count traced registers = _ :=
    valuesFrom_eq hregisters (by omega)
  rwa [List.drop_zero] at hvalues

/-- The registers after bytes have been put into those from a place on. -/
def filled (registers : Registers) (k : Nat) : List UInt8 → Registers
  | [] => registers
  | byte :: rest => filled ⟨registers.bytes.setIfInBounds k byte⟩ (k + 1) rest

@[simp]
theorem whole_filled_iff {k : Nat} {bytes : List UInt8} :
    (registers.filled k bytes).Whole ↔ registers.Whole := by
  induction bytes generalizing registers k with
  | nil => rfl
  | cons byte rest ih => rw [filled, ih, Whole, Array.size_setIfInBounds, Whole]

theorem putFrom_eq (hregisters : registers.Whole) {k : Nat} {bytes : List UInt8}
    (hlength : k + bytes.length ≤ 16) :
    putFrom k bytes traced registers = ⟨registers.filled k bytes, [], .ok ()⟩ := by
  induction bytes generalizing registers k with
  | nil => rfl
  | cons byte rest ih =>
      rw [List.length_cons] at hlength
      have hwritten : registers.written ⟨k, by omega⟩ byte.toNat
          = ⟨registers.bytes.setIfInBounds k byte⟩ := by
        simp [written]
      have hput : put k byte.toNat traced registers
          = ⟨⟨registers.bytes.setIfInBounds k byte⟩, [], .ok ()⟩ := by
        rw [← hwritten]
        exact put_eq hregisters ⟨k, by omega⟩ (isByte_toNat byte)
      have hwhole : (⟨registers.bytes.setIfInBounds k byte⟩ : Registers).Whole :=
        hwritten ▸ whole_written_iff.mpr hregisters
      have hrest := ih hwhole (by omega : k + 1 + rest.length ≤ 16)
      rw [Nat.cast_succ] at hrest
      simp [putFrom, hput, hrest, filled]

theorem get_filled (hregisters : registers.Whole) {k : Nat} {bytes : List UInt8} :
    (registers.filled k bytes).get y
      = if k ≤ y.val then (bytes[y.val - k]?).elim (registers.get y) UInt8.toNat
        else registers.get y := by
  induction bytes generalizing registers k with
  | nil => simp [filled]
  | cons byte rest ih =>
      have hplace := val_lt_size hregisters y
      rw [filled, ih (by rw [Whole, Array.size_setIfInBounds]; exact hregisters)]
      rcases Nat.lt_trichotomy k y.val with hbelow | rfl | habove
      · obtain ⟨distance, hdistance⟩ : ∃ distance, y.val = k + 1 + distance :=
          ⟨y.val - (k + 1), by omega⟩
        have hkept : (⟨registers.bytes.setIfInBounds k byte⟩ : Registers).get y
            = registers.get y := by
          rw [get, Array.getElem?_setIfInBounds_ne (by omega), get]
        have hrest : y.val - k = y.val - (k + 1) + 1 := by omega
        rw [if_pos (by omega), if_pos (by omega), hkept, hrest, List.getElem?_cons_succ]
      · rw [if_neg (by omega), if_pos (by omega), Nat.sub_self, List.getElem?_cons_zero, get,
          Array.getElem?_setIfInBounds_self_of_lt hplace]
        rfl
      · rw [if_neg (by omega), if_neg (by omega), get, Array.getElem?_setIfInBounds_ne (by omega),
          get]

end Registers

end ChipEight
