import ChipEight.Memory
import Mathlib.Data.Int.ModEq

/-!
The masks of the machine as remainders, and the ranges of bits, bytes and words.
-/

namespace ChipEight

abbrev IsBit (byte : UInt8) : Prop :=
  byte = 0 ∨ byte = 1

abbrev IsByte (n : Int) : Prop :=
  0 ≤ n ∧ n ≤ 0xFF

abbrev IsWord (n : Int) : Prop :=
  0 ≤ n ∧ n ≤ 0xFFFF

namespace Bits

/-- A mask of ones leaves the residue modulo a power of two. -/
theorem mask_ones (value : Int) (k : Nat) :
    (mask value (2 ^ k - 1) : Int) = value % ((2 ^ k : Nat) : Int) := by
  have hpos : 0 < 2 ^ k := Nat.two_pow_pos k
  cases value with
  | ofNat n => simp [mask, Nat.and_two_pow_sub_one_eq_mod]
  | negSucc n =>
      have hlt : n % 2 ^ k < 2 ^ k := Nat.mod_lt _ hpos
      simp only [mask, Nat.and_two_pow_sub_one_eq_mod]
      rw [Int.negSucc_emod n (by exact_mod_cast hpos)]
      omega

theorem mask_byteMask (value : Int) : (mask value byteMask : Int) = value % 0x100 :=
  mask_ones value 8

theorem mask_addressMask (value : Int) : (mask value addressMask : Int) = value % 0x1000 :=
  mask_ones value 12

theorem mask_wordMask (value : Int) : (mask value wordMask : Int) = value % 0x10000 :=
  mask_ones value 16

theorem isByte_mask (value : Int) : IsByte (mask value byteMask) := by
  rw [mask_byteMask]
  omega

theorem isWord_mask (value : Int) : IsWord (mask value wordMask) := by
  rw [mask_wordMask]
  omega

/-- Cutting to a word does not change what an address names. -/
theorem mask_wordMask_modEq (value : Int) : (mask value wordMask : Int) ≡ value [ZMOD 0x1000] := by
  rw [mask_wordMask]
  exact Int.emod_emod_of_dvd value (by decide)

end Bits

theorem isBit_toUInt8 (lit : Bool) : IsBit lit.toUInt8 := by
  cases lit <;> decide

theorem toUInt8_beq_one (lit : Bool) : (lit.toUInt8 == 1) = lit := by
  cases lit <;> rfl

theorem toUInt8_bne_zero (lit : Bool) : (lit.toUInt8 != 0) = lit := by
  cases lit <;> rfl

theorem IsBit.eq_toUInt8 {byte : UInt8} (hbit : IsBit byte) : byte = (byte == 1).toUInt8 := by
  rcases hbit with rfl | rfl <;> rfl

theorem all_isBit_iff {store : Array UInt8} :
    (store.toList.all fun byte => decide (IsBit byte)) = true ↔ ∀ byte ∈ store, IsBit byte := by
  simp only [List.all_eq_true, Array.mem_toList_iff, decide_eq_true_eq]

/-- Putting a bit in the place of another leaves nothing but bits. -/
theorem isBit_of_mem_set {store : Array UInt8} (hbits : ∀ byte ∈ store, IsBit byte) {bit : UInt8}
    (hbit : IsBit bit) {place : Nat} : ∀ byte ∈ store.setIfInBounds place bit, IsBit byte := by
  intro byte hmem
  rcases Array.mem_or_eq_of_mem_setIfInBounds hmem with hkept | rfl
  · exact hbits byte hkept
  · exact hbit

theorem Memory.cellOf_eq_iff {address address' : Int} :
    cellOf address = cellOf address' ↔ address ≡ address' [ZMOD 0x1000] := by
  have hleft := Bits.mask_addressMask address
  have hright := Bits.mask_addressMask address'
  simp only [cellOf, Int.ModEq]
  omega

theorem Memory.cellOf_lt (address : Int) : cellOf address < memorySize := by
  have hplace := Bits.mask_addressMask address
  simp only [cellOf, memorySize]
  omega

end ChipEight
