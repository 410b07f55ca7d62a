import ChipEight.Proofs.OpcodeDigits
import Mathlib.Data.List.Nodup

/-!
The assembler text of words: a mnemonic and operands, which are read off the digits of the word.
What is left of a text without its digits still tells the operation, so no two operations have a
text in common.
-/

namespace ChipEight

inductive Operand where
  | registerX
  | registerY
  /-- The last digit, in decimal. -/
  | nibble
  /-- The last two digits, in decimal. -/
  | byte
  /-- The last two digits as they are. -/
  | mask
  /-- The last three digits as an address. -/
  | address
  /-- All four digits. -/
  | opcode
  | named (name : String)

def Operand.text (word : Nat) : Operand → String
  | registerX => s!"V{word / 0x100 % 0x10}"
  | registerY => s!"V{word / 0x10 % 0x10}"
  | nibble => toString (word % 0x10)
  | byte => toString (word % 0x100)
  | mask => s!"0x{Hex.padded 2 (word % 0x100 : Nat)}"
  | address => s!"0x{Hex.padded 4 (word % 0x1000 : Nat)}"
  | opcode => s!"0x{Hex.padded 4 word}"
  | named name => name

namespace Operation

def mnemonic : Operation → String
  | clearScreen => "CLS"
  | returnFromCall => "RET"
  | jump | jumpWithOffset => "JP"
  | call => "CALL"
  | skipIfByte | skipIfSame => "SE"
  | skipUnlessByte | skipUnlessSame => "SNE"
  | loadByte | copy | loadIndex | readDelay | awaitKey | setDelay | setSound | selectGlyph => "LD"
  | storeDecimal | storeRegisters | loadRegisters => "LD"
  | addByte | add | addIndex => "ADD"
  | bitOr => "OR"
  | bitAnd => "AND"
  | bitXor => "XOR"
  | subtract => "SUB"
  | subtractFrom => "SUBN"
  | shiftRight => "SHR"
  | shiftLeft => "SHL"
  | random => "RND"
  | draw => "DRW"
  | skipIfPressed => "SKP"
  | skipUnlessPressed => "SKNP"
  | unknown => "DATA"

def operands : Operation → List Operand
  | clearScreen | returnFromCall => []
  | jump | call => [.address]
  | jumpWithOffset => [.named "V0", .address]
  | skipIfByte | skipUnlessByte | loadByte | addByte => [.registerX, .byte]
  | skipIfSame | skipUnlessSame | copy | bitOr | bitAnd | bitXor => [.registerX, .registerY]
  | add | subtract | subtractFrom => [.registerX, .registerY]
  | shiftRight | shiftLeft | skipIfPressed | skipUnlessPressed => [.registerX]
  | loadIndex => [.named "I", .address]
  | random => [.registerX, .mask]
  | draw => [.registerX, .registerY, .nibble]
  | readDelay => [.registerX, .named "DT"]
  | awaitKey => [.registerX, .named "K"]
  | setDelay => [.named "DT", .registerX]
  | setSound => [.named "ST", .registerX]
  | addIndex => [.named "I", .registerX]
  | selectGlyph => [.named "F", .registerX]
  | storeDecimal => [.named "B", .registerX]
  | storeRegisters => [.named "[I]", .registerX]
  | loadRegisters => [.registerX, .named "[I]"]
  | unknown => [.opcode]

end Operation

/-- Operands behind a separator; a comma stands between them. -/
def Operand.listed (word : Nat) : String → List Operand → String
  | _, [] => ""
  | separator, operand :: rest => separator ++ operand.text word ++ listed word ", " rest

def Operation.text (operation : Operation) (word : Nat) : String :=
  operation.mnemonic ++ Operand.listed word " " operation.operands

/-! ### The text of an instruction -/

theorem Instruction.assembly_eq {i : Instruction} {word : Nat} (hopcode : i.opcode = word)
    (hx : i.x.val = word / 0x100 % 0x10) (hy : i.y.val = word / 0x10 % 0x10)
    (hn : i.n = word % 0x10) (hnn : i.nn = word % 0x100) (hnnn : i.nnn = word % 0x1000) :
    i.assembly = i.operation.text word := by
  have htext : ∀ text : String, toString text = text := fun _ => rfl
  unfold assembly Operation.text
  rw [hopcode, hx, hy, hn, hnn, hnnn]
  apply String.toList_inj.mp
  cases i.operation <;>
    simp [Operation.mnemonic, Operation.operands, Operand.listed, Operand.text, htext]

/-- The text of a decoded word is that of its operation, with the operands of the word. -/
theorem Instruction.assembly_decode {word : Nat} (hword : word < 0x10000) :
    (decode word).assembly = (Operation.ofWord word).text word := by
  obtain ⟨hx, hy, hn, hnn, hnnn⟩ := fields_decode word
  rw [← Operation.ofOpcode_eq_ofWord hword]
  refine assembly_eq rfl ?_ ?_ ?_ ?_ ?_
  · omega
  · omega
  · omega
  · omega
  · omega

example : (Instruction.decode 0xC30A).assembly = "RND V3, 0x0a" := by decide

/-! ### Telling operations apart -/

/-- A digit of a decimal or a hexadecimal number. -/
def isNumeral (c : Char) : Bool :=
  c.isDigit || ('a' ≤ c && c ≤ 'f')

/-- What is left of a text without its digits. -/
def lettersOf (text : String) : List Char :=
  text.toList.filter (!isNumeral ·)

theorem lettersOf_append (first second : String) :
    lettersOf (first ++ second) = lettersOf first ++ lettersOf second := by
  rw [lettersOf, String.toList_append, List.filter_append]
  rfl

theorem filter_toDigits {base : Nat} (hbase : 1 < base) (hlow : base ≤ 16) (n : Nat) :
    (Nat.toDigits base n).filter (!isNumeral ·) = [] := by
  have hdigit : ∀ d < 16, isNumeral d.digitChar = true := by decide
  induction n using Nat.strongRecOn with
  | ind n ih =>
      by_cases hsmall : n < base
      · rw [Nat.toDigits_of_lt_base hsmall]
        simp [hdigit n (by omega)]
      · have hlt : n / base < n := Nat.div_lt_self (by omega) hbase
        have hlast : n % base < 16 := Nat.lt_of_lt_of_le (Nat.mod_lt n (by omega)) hlow
        rw [Nat.toDigits_of_base_le hbase (by omega), List.filter_append, ih _ hlt]
        simp [hdigit _ hlast]

theorem lettersOf_toString (n : Nat) : lettersOf (toString n) = [] := by
  rw [lettersOf, Nat.toString_eq_ofList_toDigits, String.toList_ofList,
    filter_toDigits (by decide) (by decide)]

theorem lettersOf_padded (width n : Nat) : lettersOf (Hex.padded width n) = [] := by
  have hpadded : Hex.padded width n
      = String.ofList (List.replicate (width - (Hex.digits n).length) '0' ++ Nat.toDigits 16 n) :=
    rfl
  have hzero : isNumeral '0' = true := by decide
  rw [hpadded, lettersOf, String.toList_ofList, List.filter_append,
    filter_toDigits (by decide) (by decide)]
  simp [hzero]

def Operand.letters : Operand → List Char
  | registerX | registerY => ['V']
  | nibble | byte => []
  | mask | address | opcode => ['x']
  | named name => lettersOf name

theorem Operand.lettersOf_text (word : Nat) (operand : Operand) :
    lettersOf (operand.text word) = operand.letters := by
  have hregister (n : Nat) : lettersOf s!"V{n}" = ['V'] := by
    rw [lettersOf_append, lettersOf_toString]
    decide
  have hhex (width n : Nat) : lettersOf s!"0x{Hex.padded width n}" = ['x'] := by
    have hnumber : lettersOf (toString (Hex.padded width n)) = [] := lettersOf_padded width n
    rw [lettersOf_append, hnumber]
    decide
  cases operand with
  | registerX | registerY => exact hregister _
  | nibble | byte => exact lettersOf_toString _
  | mask | address | opcode => exact hhex _ _
  | named name => rfl

def Operand.lettersOfList : List Char → List Operand → List Char
  | _, [] => []
  | separator, operand :: rest => separator ++ operand.letters ++ lettersOfList [',', ' '] rest

theorem Operand.lettersOf_listed (word : Nat) (separator : String) (operands : List Operand) :
    lettersOf (listed word separator operands)
      = lettersOfList (lettersOf separator) operands := by
  induction operands generalizing separator with
  | nil => rfl
  | cons operand rest ih =>
      have hcomma : lettersOf ", " = [',', ' '] := by decide
      rw [listed, lettersOf_append, lettersOf_append, lettersOf_text, ih, hcomma, lettersOfList]

namespace Operation

def letters (operation : Operation) : List Char :=
  lettersOf operation.mnemonic ++ Operand.lettersOfList [' '] operation.operands

theorem lettersOf_text (operation : Operation) (word : Nat) :
    lettersOf (operation.text word) = operation.letters := by
  have hblank : lettersOf " " = [' '] := by decide
  rw [text, lettersOf_append, Operand.lettersOf_listed, hblank, letters]

theorem letters_injective {operation operation' : Operation}
    (hletters : operation.letters = operation'.letters) : operation = operation' := by
  have hnodup : (all.map letters).Nodup := by decide +kernel
  exact List.inj_on_of_nodup_map hnodup (mem_all operation) (mem_all operation') hletters

/-- Whatever their operands are, two operations are never written alike. -/
theorem eq_of_text_eq {operation operation' : Operation} {word word' : Nat}
    (htext : operation.text word = operation'.text word') : operation = operation' := by
  refine letters_injective ?_
  rw [← lettersOf_text operation word, htext, lettersOf_text]

end Operation

end ChipEight
