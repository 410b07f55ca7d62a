import ChipEight.Proofs.Masks

/-!
Words by their hexadecimal digits. The leading digit of a word is its family. Every family is listed
by one of the opcode tables, and within it the whole word, the low byte or the last digit tells the
operation.
-/

namespace ChipEight

namespace Bits

theorem and_shiftLeft (n bits k : Nat) : n &&& bits <<< k = (n >>> k &&& bits) <<< k := by
  apply Nat.eq_of_testBit_eq
  intro i
  by_cases hi : k ≤ i
  · simp [hi]
  · simp [hi]

/-- A mask that has been shifted up picks what the mask picks of the value shifted down. -/
theorem mask_shiftLeft (value : Int) (bits k : Nat) :
    mask value (bits <<< k) >>> k = mask (value >>> k) bits := by
  cases value with
  | ofNat n =>
      have hshift : Int.ofNat n >>> k = Int.ofNat (n >>> k) := rfl
      rw [hshift, mask, mask, and_shiftLeft, Nat.shiftLeft_shiftRight]
  | negSucc n =>
      have hshift : Int.negSucc n >>> k = Int.negSucc (n >>> k) := rfl
      rw [hshift, mask, mask, and_shiftLeft, Nat.shiftLeft_eq, Nat.shiftLeft_eq, ← Nat.sub_mul,
        Nat.shiftRight_eq_div_pow, Nat.mul_div_cancel _ (Nat.two_pow_pos k)]

theorem and_ends (n : Nat) {k : Nat} (hk : k ≤ 12) :
    n &&& (0xF <<< 12 ||| (2 ^ k - 1)) = 0x1000 * (n / 0x1000 % 0x10) + n % 2 ^ k := by
  have hleading : n &&& 0xF <<< 12 = (n / 0x1000 % 0x10) <<< 12 :=
    calc
      n &&& 0xF <<< 12 = (n >>> 12 &&& (2 ^ 4 - 1)) <<< 12 := and_shiftLeft n 0xF 12
      _ = (n / 0x1000 % 0x10) <<< 12 := by
        rw [Nat.and_two_pow_sub_one_eq_mod, Nat.shiftRight_eq_div_pow]
  have hlow : n % 2 ^ k < 2 ^ 12 :=
    (Nat.mod_lt n (Nat.two_pow_pos k)).trans_le (Nat.pow_le_pow_right (by decide) hk)
  rw [Nat.and_or_distrib_left, hleading, Nat.and_two_pow_sub_one_eq_mod,
    ← Nat.shiftLeft_add_eq_or_of_lt hlow, Nat.shiftLeft_eq, Nat.mul_comm]

/-- A mask of the fourth digit and of some of the lowest bits leaves these. -/
theorem mask_ends (value : Int) {k : Nat} (hk : k ≤ 12) :
    (mask value (0xF <<< 12 ||| (2 ^ k - 1)) : Int) =
      0x1000 * (value / 0x1000 % 0x10) + value % ((2 ^ k : Nat) : Int) := by
  have hpos : 0 < 2 ^ k := Nat.two_pow_pos k
  cases value with
  | ofNat n =>
      simp only [mask, and_ends n hk, Int.ofNat_eq_natCast]
      omega
  | negSucc n =>
      have hlow : n % 2 ^ k < 2 ^ k := Nat.mod_lt n hpos
      have hones : 2 ^ k - 1 < 2 ^ 12 :=
        (Nat.sub_lt hpos Nat.one_pos).trans_le (Nat.pow_le_pow_right (by decide) hk)
      have hbits : 0xF <<< 12 ||| (2 ^ k - 1) = 0x1000 * 0xF + (2 ^ k - 1) := by
        rw [← Nat.shiftLeft_add_eq_or_of_lt hones, Nat.shiftLeft_eq, Nat.mul_comm]
      rw [Int.negSucc_emod n (by exact_mod_cast hpos)]
      rw [mask, and_ends n hk, hbits]
      omega

end Bits

/-! ### Operand fields -/

namespace Instruction

theorem fields_decode (opcode : Int) :
    ((decode opcode).x.val : Int) = opcode / 0x100 % 0x10 ∧
      ((decode opcode).y.val : Int) = opcode / 0x10 % 0x10 ∧
      ((decode opcode).n : Int) = opcode % 0x10 ∧ ((decode opcode).nn : Int) = opcode % 0x100 ∧
      ((decode opcode).nnn : Int) = opcode % 0x1000 := by
  have hx : (decode opcode).x.val = Bits.mask (opcode >>> (8 : Nat)) (2 ^ 4 - 1) :=
    Bits.mask_shiftLeft opcode 0xF 8
  have hy : (decode opcode).y.val = Bits.mask (opcode >>> (4 : Nat)) (2 ^ 4 - 1) :=
    Bits.mask_shiftLeft opcode 0xF 4
  refine ⟨?_, ?_, Bits.mask_ones opcode 4, Bits.mask_byteMask opcode, Bits.mask_addressMask opcode⟩
  · rw [hx, Bits.mask_ones, Int.shiftRight_eq_div_pow]
    rfl
  · rw [hy, Bits.mask_ones, Int.shiftRight_eq_div_pow]
    rfl

/-- A word put together from digits is taken apart into them. -/
theorem decode_digits {word leading n : Nat} {x y : Fin 16} (hn : n < 0x10)
    (hword : word = 0x1000 * leading + 0x100 * x + 0x10 * y + n) :
    (decode word).x = x ∧ (decode word).y = y ∧ (decode word).n = n ∧
      (decode word).nn = 0x10 * y + n := by
  obtain ⟨hx, hy, hlast, hlow, -⟩ := fields_decode word
  refine ⟨Fin.ext ?_, Fin.ext ?_, ?_, ?_⟩
  · omega
  · omega
  · omega
  · omega

end Instruction

/-! ### Families -/

namespace OpcodeTable

/-- The leading digits of the words that a table lists. -/
def families (table : OpcodeTable) : List Nat :=
  table.entries.map fun entry => entry.1 / 0x1000

variable {table : OpcodeTable} {word : Nat}

theorem mask_of_mem (htable : table ∈ opcodeTables) :
    ∃ k ≤ 12, table.mask = 0xF <<< 12 ||| (2 ^ k - 1) := by
  simp only [opcodeTables, List.mem_cons, List.not_mem_nil, or_false] at htable
  rcases htable with rfl | rfl | rfl | rfl
  · exact ⟨12, by decide, rfl⟩
  · exact ⟨8, by decide, rfl⟩
  · exact ⟨4, by decide, rfl⟩
  · exact ⟨0, by decide, rfl⟩

theorem find?_eq_lookup {k : Nat} (hword : word < 0x10000) (hk : k ≤ 12)
    (hmask : table.mask = 0xF <<< 12 ||| (2 ^ k - 1)) :
    table.find? word = table.entries.lookup (0x1000 * (word / 0x1000) + word % 2 ^ k) := by
  have hends := Bits.mask_ends word hk
  rw [find?, hmask]
  congr 1
  omega

theorem find?_eq_none (hword : word < 0x10000) (htable : table ∈ opcodeTables)
    (hfamily : word / 0x1000 ∉ table.families) : table.find? word = none := by
  obtain ⟨k, hk, hmask⟩ := mask_of_mem htable
  have hlow : word % 2 ^ k < 0x1000 :=
    (Nat.mod_lt word (Nat.two_pow_pos k)).trans_le (Nat.pow_le_pow_right (by decide) hk)
  rw [find?_eq_lookup hword hk hmask, List.lookup_eq_none_iff]
  intro entry hentry
  rw [bne_iff_ne]
  intro hkey
  exact hfamily (List.mem_map.mpr ⟨entry, hentry, by omega⟩)

theorem families_apart : opcodeTables.Pairwise fun table other =>
    ∀ leading ∈ table.families, leading ∉ other.families := by
  decide

/-- Only the table that lists the family of a word may list the word. -/
theorem find?_eq_none_beside {before behind : List OpcodeTable}
    (hsplit : opcodeTables = before ++ table :: behind) (hword : word < 0x10000)
    (hfamily : word / 0x1000 ∈ table.families) :
    (∀ other ∈ before, other.find? word = none) ∧ ∀ other ∈ behind, other.find? word = none := by
  have hapart := families_apart
  rw [hsplit, List.pairwise_append, List.pairwise_cons] at hapart
  obtain ⟨-, ⟨hbehind, -⟩, hbefore⟩ := hapart
  constructor
  · intro other hother
    refine find?_eq_none hword (by simp [hsplit, hother]) fun hboth => ?_
    exact hbefore other hother table List.mem_cons_self _ hboth hfamily
  · intro other hother
    exact find?_eq_none hword (by simp [hsplit, hother]) (hbehind other hother _ hfamily)

theorem exists_of_leading {leading : Nat} (hleading : leading < 0x10) :
    ∃ table ∈ opcodeTables, leading ∈ table.families := by
  decide +revert

/-- A word is looked up in the one table that lists its family. -/
theorem ofOpcode_of_mem_families (hword : word < 0x10000) (htable : table ∈ opcodeTables)
    (hfamily : word / 0x1000 ∈ table.families) :
    Operation.ofOpcode word = (table.find? word).getD .unknown := by
  obtain ⟨before, behind, hsplit⟩ := List.append_of_mem htable
  obtain ⟨hbefore, hbehind⟩ := find?_eq_none_beside hsplit hword hfamily
  rw [Operation.ofOpcode, Operation.ofTables, hsplit, List.findSome?_append,
    List.findSome?_eq_none_iff.mpr hbefore, List.findSome?_cons,
    List.findSome?_eq_none_iff.mpr hbehind, Option.none_or]
  cases table.find? word with
  | none => rfl
  | some operation => rfl

end OpcodeTable

/-! ### Operations -/

namespace Operation

/-- The operation of a word: of its family, and in most families of one more part of the word. -/
def ofWord (word : Nat) : Operation :=
  match word / 0x1000 with
  | 0x0 =>
      match word with
      | 0x00E0 => .clearScreen
      | 0x00EE => .returnFromCall
      | _ => .unknown
  | 0x1 => .jump
  | 0x2 => .call
  | 0x3 => .skipIfByte
  | 0x4 => .skipUnlessByte
  | 0x5 =>
      match word % 0x10 with
      | 0x0 => .skipIfSame
      | _ => .unknown
  | 0x6 => .loadByte
  | 0x7 => .addByte
  | 0x8 =>
      match word % 0x10 with
      | 0x0 => .copy
      | 0x1 => .bitOr
      | 0x2 => .bitAnd
      | 0x3 => .bitXor
      | 0x4 => .add
      | 0x5 => .subtract
      | 0x6 => .shiftRight
      | 0x7 => .subtractFrom
      | 0xE => .shiftLeft
      | _ => .unknown
  | 0x9 =>
      match word % 0x10 with
      | 0x0 => .skipUnlessSame
      | _ => .unknown
  | 0xA => .loadIndex
  | 0xB => .jumpWithOffset
  | 0xC => .random
  | 0xD => .draw
  | 0xE =>
      match word % 0x100 with
      | 0x9E => .skipIfPressed
      | 0xA1 => .skipUnlessPressed
      | _ => .unknown
  | 0xF =>
      match word % 0x100 with
      | 0x07 => .readDelay
      | 0x0A => .awaitKey
      | 0x15 => .setDelay
      | 0x18 => .setSound
      | 0x1E => .addIndex
      | 0x29 => .selectGlyph
      | 0x33 => .storeDecimal
      | 0x55 => .storeRegisters
      | 0x65 => .loadRegisters
      | _ => .unknown
  | _ => .unknown

variable {word : Nat}

theorem ofWord_of_wholeWord (hfamily : word / 0x1000 ∈ wholeWordTable.families) :
    (wholeWordTable.entries.lookup (0x1000 * (word / 0x1000) + word % 2 ^ 12)).getD .unknown
      = ofWord word := by
  have hleading : word / 0x1000 = 0x0 := by
    simpa [OpcodeTable.families, wholeWordTable] using hfamily
  have hsum : 0x1000 * (word / 0x1000) + word % 2 ^ 12 = word := Nat.div_add_mod word 0x1000
  rw [hsum]
  simp only [ofWord, hleading]
  split
  · rfl
  · rfl
  · rename_i hclear hreturn
    have hnone : wholeWordTable.entries.lookup word = none := by
      simp only [List.lookup_eq_none_iff, wholeWordTable, List.forall_mem_cons, bne_iff_ne]
      exact ⟨hclear, hreturn, by simp⟩
    rw [hnone, Option.getD_none]

theorem ofWord_of_lowByte (hfamily : word / 0x1000 ∈ lowByteTable.families) :
    (lowByteTable.entries.lookup (0x1000 * (word / 0x1000) + word % 2 ^ 8)).getD .unknown
      = ofWord word := by
  have hleading : word / 0x1000 = 0xE ∨ word / 0x1000 = 0xF := by
    simpa [OpcodeTable.families, lowByteTable] using hfamily
  have hlow : word % 0x100 < 0x100 := Nat.mod_lt word (by decide)
  rcases hleading with hleading | hleading
  all_goals
    simp only [ofWord, hleading, Nat.reducePow]
    generalize word % 0x100 = low at hlow
    clear hleading hfamily
    decide +kernel +revert

theorem ofWord_of_outerNibbles (hfamily : word / 0x1000 ∈ outerNibblesTable.families) :
    (outerNibblesTable.entries.lookup (0x1000 * (word / 0x1000) + word % 2 ^ 4)).getD .unknown
      = ofWord word := by
  have hleading : word / 0x1000 = 0x5 ∨ word / 0x1000 = 0x9 ∨ word / 0x1000 = 0x8 := by
    simpa [OpcodeTable.families, outerNibblesTable] using hfamily
  have hlast : word % 0x10 < 0x10 := Nat.mod_lt word (by decide)
  rcases hleading with hleading | hleading | hleading
  all_goals
    simp only [ofWord, hleading, Nat.reducePow]
    generalize word % 0x10 = last at hlast
    clear hleading hfamily
    decide +revert

theorem ofWord_of_leadingNibble (hfamily : word / 0x1000 ∈ leadingNibbleTable.families) :
    (leadingNibbleTable.entries.lookup (0x1000 * (word / 0x1000) + word % 2 ^ 0)).getD .unknown
      = ofWord word := by
  simp only [OpcodeTable.families, leadingNibbleTable, List.map_cons, List.map_nil, List.mem_cons,
    Nat.reduceDiv, List.not_mem_nil, or_false] at hfamily
  rw [pow_zero, Nat.mod_one]
  rcases hfamily with h | h | h | h | h | h | h | h | h | h
  all_goals
    simp only [ofWord, h]
    rfl

/-- The tables read a word by its digits. -/
theorem ofOpcode_eq_ofWord (hword : word < 0x10000) : ofOpcode word = ofWord word := by
  obtain ⟨table, htable, hfamily⟩ := OpcodeTable.exists_of_leading (by omega : word / 0x1000 < 0x10)
  rw [OpcodeTable.ofOpcode_of_mem_families hword htable hfamily]
  simp only [opcodeTables, List.mem_cons, List.not_mem_nil, or_false] at htable
  rcases htable with rfl | rfl | rfl | rfl
  · rw [OpcodeTable.find?_eq_lookup (k := 12) hword (by decide) rfl, ofWord_of_wholeWord hfamily]
  · rw [OpcodeTable.find?_eq_lookup (k := 8) hword (by decide) rfl, ofWord_of_lowByte hfamily]
  · rw [OpcodeTable.find?_eq_lookup (k := 4) hword (by decide) rfl, ofWord_of_outerNibbles hfamily]
  · rw [OpcodeTable.find?_eq_lookup (k := 0) hword (by decide) rfl,
      ofWord_of_leadingNibble hfamily]

/-- Unless the leading digit is zero, the second one is an operand and tells nothing. -/
theorem ofWord_of_low {leading low : Nat} {x : Fin 16} (hleading : 0 < leading)
    (hlow : low < 0x100) (hword : word = 0x1000 * leading + 0x100 * x + low) :
    ofWord word = ofWord (0x1000 * leading + low) := by
  have hfamily : word / 0x1000 = leading := by omega
  have hbyte : word % 0x100 = low := by omega
  have hlast : word % 0x10 = low % 0x10 := by omega
  have hfamily' : (0x1000 * leading + low) / 0x1000 = leading := by omega
  have hbyte' : (0x1000 * leading + low) % 0x100 = low := by omega
  have hlast' : (0x1000 * leading + low) % 0x10 = low % 0x10 := by omega
  simp only [ofWord, hfamily, hbyte, hlast, hfamily', hbyte', hlast']
  split
  · contradiction
  all_goals rfl

/-- In three families the last digit tells the operation, and the two before it are operands. -/
theorem ofWord_of_outer {leading digit : Nat} {x y : Fin 16} (hleading : leading ∈ [0x5, 0x8, 0x9])
    (hdigit : digit < 0x10) (hword : word = 0x1000 * leading + 0x100 * x + 0x10 * y + digit) :
    ofWord word = ofWord (0x1000 * leading + digit) := by
  have hfamily : word / 0x1000 = leading := by omega
  have hlast : word % 0x10 = digit := by omega
  have hfamily' : (0x1000 * leading + digit) / 0x1000 = leading := by omega
  have hlast' : (0x1000 * leading + digit) % 0x10 = digit := by omega
  simp only [List.mem_cons, List.not_mem_nil, or_false] at hleading
  simp only [ofWord, hfamily, hlast, hfamily', hlast']
  rcases hleading with rfl | rfl | rfl
  all_goals rfl

theorem ofWord_eq_call_iff : ofWord word = .call ↔ word / 0x1000 = 0x2 := by
  fun_cases ofWord word
  all_goals simp_all
  omega

theorem ofWord_eq_returnFromCall_iff : ofWord word = .returnFromCall ↔ word = 0x00EE := by
  fun_cases ofWord word
  all_goals simp_all
  all_goals omega

theorem ofWord_eq_clearScreen_iff : ofWord word = .clearScreen ↔ word = 0x00E0 := by
  fun_cases ofWord word
  all_goals simp_all
  all_goals omega

theorem ofWord_eq_draw_iff : ofWord word = .draw ↔ word / 0x1000 = 0xD := by
  fun_cases ofWord word
  all_goals simp_all
  omega

theorem ofWord_eq_random_iff : ofWord word = .random ↔ word / 0x1000 = 0xC := by
  fun_cases ofWord word
  all_goals simp_all
  omega

theorem ofWord_eq_setDelay_iff :
    ofWord word = .setDelay ↔ word / 0x1000 = 0xF ∧ word % 0x100 = 0x15 := by
  fun_cases ofWord word
  all_goals simp_all
  omega

theorem ofWord_eq_setSound_iff :
    ofWord word = .setSound ↔ word / 0x1000 = 0xF ∧ word % 0x100 = 0x18 := by
  fun_cases ofWord word
  all_goals simp_all
  omega

/-- A word that is none of the instructions. -/
def Unassigned (word : Nat) : Prop :=
  match word / 0x1000 with
  | 0x0 => word ≠ 0x00E0 ∧ word ≠ 0x00EE
  | 0x5 | 0x9 => word % 0x10 ≠ 0
  | 0x8 => word % 0x10 ∉ [0x0, 0x1, 0x2, 0x3, 0x4, 0x5, 0x6, 0x7, 0xE]
  | 0xE => word % 0x100 ∉ [0x9E, 0xA1]
  | 0xF => word % 0x100 ∉ [0x07, 0x0A, 0x15, 0x18, 0x1E, 0x29, 0x33, 0x55, 0x65]
  | _ => False

theorem ofWord_eq_unknown_iff (hword : word < 0x10000) :
    ofWord word = .unknown ↔ Unassigned word := by
  unfold Unassigned
  fun_cases ofWord word
  all_goals simp_all
  · rw [Nat.div_eq_of_lt ‹_›]
    trivial
  · omega

end Operation

/-- A word of a leading digit, the operand X and a low byte. -/
theorem Instruction.decode_low {word leading low : Nat} {x : Fin 16}
    (hleading : 0 < leading ∧ leading < 0x10) (hlow : low < 0x100)
    (hword : word = 0x1000 * leading + 0x100 * x + low) :
    (decode word).operation = .ofWord (0x1000 * leading + low) ∧ (decode word).x = x ∧
      (decode word).nn = low := by
  have hop : (decode word).operation = .ofWord word := Operation.ofOpcode_eq_ofWord (by omega)
  obtain ⟨hx, -, -, hnn, -⟩ := fields_decode word
  refine ⟨hop.trans (Operation.ofWord_of_low hleading.1 hlow hword), Fin.ext ?_, ?_⟩
  · omega
  · omega

/-- A word of a leading digit, the operands X and Y and a last digit. -/
theorem Instruction.decode_outer {word leading digit : Nat} {x y : Fin 16}
    (hleading : leading ∈ [0x5, 0x8, 0x9]) (hdigit : digit < 0x10)
    (hword : word = 0x1000 * leading + 0x100 * x + 0x10 * y + digit) :
    (decode word).operation = .ofWord (0x1000 * leading + digit) ∧ (decode word).x = x ∧
      (decode word).y = y := by
  have hbound : leading < 0x10 := by
    have hall : ∀ leading ∈ [0x5, 0x8, 0x9], leading < 0x10 := by decide
    exact hall leading hleading
  have hop : (decode word).operation = .ofWord word := Operation.ofOpcode_eq_ofWord (by omega)
  obtain ⟨hx, hy, -⟩ := decode_digits hdigit hword
  exact ⟨hop.trans (Operation.ofWord_of_outer hleading hdigit hword), hx, hy⟩

end ChipEight
