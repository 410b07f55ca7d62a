import ChipEight.Proofs.OpcodeDigits
import Mathlib.Data.List.Perm.Basic

/-!
Decoding of any integer. An opcode decodes by its last four hexadecimal digits, whatever its sign
and however wide it is. The tables are tried one after another and the first that lists the opcode
decides, but no opcode is listed twice, so their order decides nothing.
-/

namespace ChipEight

namespace Instruction

/-- The last four hexadecimal digits of an opcode. -/
def lastDigits (opcode : Int) : Nat :=
  (opcode % 0x10000).toNat

theorem lastDigits_lt (opcode : Int) : lastDigits opcode < 0x10000 := by
  rw [lastDigits]
  omega

theorem natCast_lastDigits (opcode : Int) : (lastDigits opcode : Int) = opcode % 0x10000 :=
  Int.toNat_of_nonneg (Int.emod_nonneg opcode (by decide))

end Instruction

open Instruction

/-! ### Looking an opcode up -/

namespace OpcodeTable

variable {table : OpcodeTable}

/-- Whether an opcode is one of those that a table recognises. -/
def lists (table : OpcodeTable) (opcode : Int) : Bool :=
  (table.find? opcode).isSome

/-- No table looks above the lowest sixteen bits. -/
theorem find?_lastDigits (htable : table ∈ opcodeTables) (opcode : Int) :
    table.find? (lastDigits opcode) = table.find? opcode := by
  obtain ⟨k, hk, hmask⟩ := mask_of_mem htable
  -- Both ends that the mask leaves lie below bit 16.
  have hdvd : ((2 ^ k : Nat) : Int) ∣ 0x10000 :=
    Int.natCast_dvd_natCast.mpr (Nat.pow_dvd_pow 2 (hk.trans (by decide : 12 ≤ 16)))
  have hlow := Int.emod_emod_of_dvd opcode hdvd
  have hends := Bits.mask_ends opcode hk
  have hends' := Bits.mask_ends (opcode % 0x10000) hk
  have hkey : Bits.mask (opcode % 0x10000) table.mask = Bits.mask opcode table.mask := by
    rw [hmask]
    omega
  rw [find?, find?, natCast_lastDigits, hkey]

theorem countP_lists_eq_zero {tables : List OpcodeTable} {opcode : Int}
    (hnone : ∀ table ∈ tables,
      table ∈ opcodeTables ∧ table.find? (lastDigits opcode) = none) :
    tables.countP (·.lists opcode) = 0 := by
  rw [List.countP_eq_zero]
  intro table htable
  obtain ⟨hmem, hfind⟩ := hnone table htable
  rw [lists, ← find?_lastDigits hmem opcode, hfind]
  simp

/-- The table of the family that an opcode belongs to is the only one that may list it. -/
theorem countP_lists_le_one (opcode : Int) : opcodeTables.countP (·.lists opcode) ≤ 1 := by
  have hword := lastDigits_lt opcode
  obtain ⟨table, htable, hfamily⟩ :=
    exists_of_leading (by omega : lastDigits opcode / 0x1000 < 0x10)
  obtain ⟨before, behind, hsplit⟩ := List.append_of_mem htable
  obtain ⟨hbefore, hbehind⟩ := find?_eq_none_beside hsplit hword hfamily
  have hnone : before.countP (·.lists opcode) = 0 :=
    countP_lists_eq_zero fun other hother => ⟨by simp [hsplit, hother], hbefore other hother⟩
  have hnone' : behind.countP (·.lists opcode) = 0 :=
    countP_lists_eq_zero fun other hother => ⟨by simp [hsplit, hother], hbehind other hother⟩
  rw [hsplit, List.countP_append, List.countP_cons, hnone, hnone']
  split
  · exact le_rfl
  · exact Nat.zero_le 1

end OpcodeTable

namespace Operation

variable {tables tables' : List OpcodeTable} {opcode opcode' : Int}

theorem ofTables_congr
    (hsame : ∀ table ∈ tables, table.find? opcode = table.find? opcode') :
    ofTables tables opcode = ofTables tables opcode' := by
  rw [ofTables, ofTables, ← List.head?_filterMap, ← List.head?_filterMap,
    List.filterMap_congr hsame]

/-- If at most one of some tables lists an opcode, their order does not matter. -/
theorem ofTables_perm (hperm : tables.Perm tables')
    (honce : tables'.countP (·.lists opcode) ≤ 1) :
    ofTables tables opcode = ofTables tables' opcode := by
  have hfound := hperm.filterMap (·.find? opcode)
  have hlength : (tables'.filterMap (·.find? opcode)).length ≤ 1 :=
    List.length_filterMap_eq_countP.trans_le honce
  have hsame : tables.filterMap (·.find? opcode) = tables'.filterMap (·.find? opcode) := by
    rcases Nat.le_one_iff_eq_zero_or_eq_one.mp hlength with hnone | hone
    · rw [List.length_eq_zero_iff] at hnone
      rw [hnone] at hfound ⊢
      exact hfound.eq_nil
    · obtain ⟨operation, hone⟩ := List.length_eq_one_iff.mp hone
      rw [hone] at hfound ⊢
      exact hfound.eq_singleton
  rw [ofTables, ofTables, ← List.head?_filterMap, ← List.head?_filterMap, hsame]

/-- Any integer encodes what its last four digits encode. -/
theorem ofOpcode_eq_ofWord_lastDigits (opcode : Int) :
    ofOpcode opcode = ofWord (lastDigits opcode) :=
  calc
    ofOpcode opcode = ofOpcode (lastDigits opcode) :=
      ofTables_congr fun _ htable => (OpcodeTable.find?_lastDigits htable opcode).symm
    _ = ofWord (lastDigits opcode) := ofOpcode_eq_ofWord (lastDigits_lt opcode)

end Operation

/-! ### The decoded instruction -/

namespace Instruction

/-- An opcode is taken apart by the digits of its last word. -/
structure DecodesByDigits (opcode : Int) : Prop where
  echoed : (decode opcode).opcode = opcode
  x : (decode opcode).x.val = lastDigits opcode / 0x100 % 0x10
  y : (decode opcode).y.val = lastDigits opcode / 0x10 % 0x10
  n : (decode opcode).n = lastDigits opcode % 0x10
  nn : (decode opcode).nn = lastDigits opcode % 0x100
  nnn : (decode opcode).nnn = lastDigits opcode % 0x1000
  recombined :
    0x1000 * (lastDigits opcode / 0x1000 % 0x10) + 0x100 * (decode opcode).x.val
      + 0x10 * (decode opcode).y.val + (decode opcode).n = lastDigits opcode
  operation : (decode opcode).operation = .ofWord (lastDigits opcode)
  listedOnce : opcodeTables.countP (·.lists opcode) ≤ 1
  anyOrder : ∀ tables : List OpcodeTable, tables.Perm opcodeTables →
    .ofTables tables opcode = (decode opcode).operation
  residueOnly : ∀ other : Int, other % 0x10000 = opcode % 0x10000 →
    decode other = { decode opcode with opcode := other }

theorem fields_lastDigits (opcode : Int) :
    (decode opcode).x.val = lastDigits opcode / 0x100 % 0x10 ∧
      (decode opcode).y.val = lastDigits opcode / 0x10 % 0x10 ∧
      (decode opcode).n = lastDigits opcode % 0x10 ∧
      (decode opcode).nn = lastDigits opcode % 0x100 ∧
      (decode opcode).nnn = lastDigits opcode % 0x1000 := by
  obtain ⟨hx, hy, hn, hnn, hnnn⟩ := fields_decode opcode
  have hlast := natCast_lastDigits opcode
  refine ⟨?_, ?_, ?_, ?_, ?_⟩
  all_goals omega

/-- Two opcodes with the same last four digits decode alike, except that each is recorded. -/
theorem decode_congr {opcode other : Int} (hsame : lastDigits other = lastDigits opcode) :
    decode other = { decode opcode with opcode := other } := by
  have hop : (decode other).operation = (decode opcode).operation := by
    change Operation.ofOpcode other = Operation.ofOpcode opcode
    rw [Operation.ofOpcode_eq_ofWord_lastDigits, Operation.ofOpcode_eq_ofWord_lastDigits, hsame]
  obtain ⟨hx, hy, hn, hnn, hnnn⟩ := fields_lastDigits opcode
  obtain ⟨hx', hy', hn', hnn', hnnn'⟩ := hsame ▸ fields_lastDigits other
  rw [decode, mk.injEq]
  exact ⟨hop, rfl, Fin.ext (hx'.trans hx.symm), Fin.ext (hy'.trans hy.symm), hn'.trans hn.symm,
    hnn'.trans hnn.symm, hnnn'.trans hnnn.symm⟩

/-- Decoding takes every integer apart as the instruction set says. -/
theorem decodesByDigits (opcode : Int) : DecodesByDigits opcode where
  echoed := rfl
  x := (fields_lastDigits opcode).1
  y := (fields_lastDigits opcode).2.1
  n := (fields_lastDigits opcode).2.2.1
  nn := (fields_lastDigits opcode).2.2.2.1
  nnn := (fields_lastDigits opcode).2.2.2.2
  recombined := by
    obtain ⟨hx, hy, hn, -, -⟩ := fields_lastDigits opcode
    have hword := lastDigits_lt opcode
    omega
  operation := Operation.ofOpcode_eq_ofWord_lastDigits opcode
  listedOnce := OpcodeTable.countP_lists_le_one opcode
  anyOrder := fun _ hperm => Operation.ofTables_perm hperm (OpcodeTable.countP_lists_le_one opcode)
  residueOnly := fun _ hsame => decode_congr (congrArg Int.toNat hsame)

example : decode (-0x2C4B) = { decode 0xD3B5 with opcode := -0x2C4B } := by
  decide

end Instruction

end ChipEight
