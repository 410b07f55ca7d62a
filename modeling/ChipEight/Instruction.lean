import ChipEight.Operation
import ChipEight.Parameters
import ChipEight.Text.Report

/-!
Instructions: an opcode taken apart into its operation and its operand fields, and the assembler
text of an instruction. An opcode may be any integer; only its lowest sixteen bits are looked at.
-/

namespace ChipEight

/-- An opcode with the operation that it encodes and every operand field that it may use. -/
structure Instruction where
  operation : Operation
  opcode : Int
  x : Fin 16
  y : Fin 16
  n : Nat
  nn : Nat
  nnn : Nat
  deriving DecidableEq

/-- Opcodes that are recognised by one mask: those whose masked value is listed. -/
structure OpcodeTable where
  mask : Nat
  entries : List (Nat × Operation)

def OpcodeTable.find? (table : OpcodeTable) (opcode : Int) : Option Operation :=
  table.entries.lookup (Bits.mask opcode table.mask)

/-- Operations without operands. -/
def wholeWordTable : OpcodeTable :=
  ⟨0xFFFF, [(0x00E0, .clearScreen), (0x00EE, .returnFromCall)]⟩

/-- Operations told by the leading nibble and the low byte. -/
def lowByteTable : OpcodeTable :=
  ⟨0xF0FF,
    [(0xE09E, .skipIfPressed), (0xE0A1, .skipUnlessPressed), (0xF007, .readDelay),
     (0xF00A, .awaitKey), (0xF015, .setDelay), (0xF018, .setSound), (0xF01E, .addIndex),
     (0xF029, .selectGlyph), (0xF033, .storeDecimal), (0xF055, .storeRegisters),
     (0xF065, .loadRegisters)]⟩

/-- Operations told by the outer nibbles. -/
def outerNibblesTable : OpcodeTable :=
  ⟨0xF00F,
    [(0x5000, .skipIfSame), (0x9000, .skipUnlessSame), (0x8000, .copy), (0x8001, .bitOr),
     (0x8002, .bitAnd), (0x8003, .bitXor), (0x8004, .add), (0x8005, .subtract),
     (0x8006, .shiftRight), (0x8007, .subtractFrom), (0x800E, .shiftLeft)]⟩

/-- Operations told by the leading nibble. -/
def leadingNibbleTable : OpcodeTable :=
  ⟨0xF000,
    [(0x1000, .jump), (0x2000, .call), (0x3000, .skipIfByte), (0x4000, .skipUnlessByte),
     (0x6000, .loadByte), (0x7000, .addByte), (0xA000, .loadIndex), (0xB000, .jumpWithOffset),
     (0xC000, .random), (0xD000, .draw)]⟩

/-- The tables in the order in which they are tried. -/
def opcodeTables : List OpcodeTable :=
  [wholeWordTable, lowByteTable, outerNibblesTable, leadingNibbleTable]

/-- The operation of the first of some tables that lists an opcode. -/
def Operation.ofTables (tables : List OpcodeTable) (opcode : Int) : Operation :=
  (tables.findSome? (·.find? opcode)).getD .unknown

def Operation.ofOpcode (opcode : Int) : Operation :=
  .ofTables opcodeTables opcode

namespace Instruction

def fieldX (opcode : Int) : Fin 16 :=
  ⟨Bits.mask opcode 0x0F00 >>> 8, by
    have := Bits.mask_le opcode 0x0F00
    rw [Nat.shiftRight_eq_div_pow]
    omega⟩

def fieldY (opcode : Int) : Fin 16 :=
  ⟨Bits.mask opcode 0x00F0 >>> 4, by
    have := Bits.mask_le opcode 0x00F0
    rw [Nat.shiftRight_eq_div_pow]
    omega⟩

def decode (opcode : Int) : Instruction where
  operation := .ofOpcode opcode
  opcode := opcode
  x := fieldX opcode
  y := fieldY opcode
  n := Bits.mask opcode nibbleMask
  nn := Bits.mask opcode byteMask
  nnn := Bits.mask opcode addressMask

/-- The assembler text: bytes in decimal, addresses in four hexadecimal digits. -/
def assembly (i : Instruction) : String :=
  let vx := s!"V{i.x.val}"
  let vy := s!"V{i.y.val}"
  let target := s!"0x{Hex.padded 4 i.nnn}"
  match i.operation with
  | .clearScreen => "CLS"
  | .returnFromCall => "RET"
  | .jump => s!"JP {target}"
  | .call => s!"CALL {target}"
  | .skipIfByte => s!"SE {vx}, {i.nn}"
  | .skipUnlessByte => s!"SNE {vx}, {i.nn}"
  | .skipIfSame => s!"SE {vx}, {vy}"
  | .skipUnlessSame => s!"SNE {vx}, {vy}"
  | .loadByte => s!"LD {vx}, {i.nn}"
  | .addByte => s!"ADD {vx}, {i.nn}"
  | .copy => s!"LD {vx}, {vy}"
  | .bitOr => s!"OR {vx}, {vy}"
  | .bitAnd => s!"AND {vx}, {vy}"
  | .bitXor => s!"XOR {vx}, {vy}"
  | .add => s!"ADD {vx}, {vy}"
  | .subtract => s!"SUB {vx}, {vy}"
  | .shiftRight => s!"SHR {vx}"
  | .subtractFrom => s!"SUBN {vx}, {vy}"
  | .shiftLeft => s!"SHL {vx}"
  | .loadIndex => s!"LD I, {target}"
  | .jumpWithOffset => s!"JP V0, {target}"
  | .random => s!"RND {vx}, 0x{Hex.padded 2 i.nn}"
  | .draw => s!"DRW {vx}, {vy}, {i.n}"
  | .skipIfPressed => s!"SKP {vx}"
  | .skipUnlessPressed => s!"SKNP {vx}"
  | .readDelay => s!"LD {vx}, DT"
  | .awaitKey => s!"LD {vx}, K"
  | .setDelay => s!"LD DT, {vx}"
  | .setSound => s!"LD ST, {vx}"
  | .addIndex => s!"ADD I, {vx}"
  | .selectGlyph => s!"LD F, {vx}"
  | .storeDecimal => s!"LD B, {vx}"
  | .storeRegisters => s!"LD [I], {vx}"
  | .loadRegisters => s!"LD {vx}, [I]"
  | .unknown => s!"DATA 0x{Hex.padded 4 i.opcode}"

end Instruction

end ChipEight
