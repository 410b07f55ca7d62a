/-!
The operations of the instruction set.
-/

namespace ChipEight

inductive Operation where
  | clearScreen
  | returnFromCall
  | jump
  | call
  | skipIfByte
  | skipUnlessByte
  | skipIfSame
  | loadByte
  | addByte
  | copy
  | bitOr
  | bitAnd
  | bitXor
  | add
  | subtract
  | shiftRight
  | subtractFrom
  | shiftLeft
  | skipUnlessSame
  | loadIndex
  | jumpWithOffset
  | random
  | draw
  | skipIfPressed
  | skipUnlessPressed
  | readDelay
  | awaitKey
  | setDelay
  | setSound
  | addIndex
  | selectGlyph
  | storeDecimal
  | storeRegisters
  | loadRegisters
  /-- A word that encodes no operation. -/
  | unknown
  deriving DecidableEq

namespace Operation

/-- The operations in the order of the reference table. -/
def all : List Operation :=
  [clearScreen, returnFromCall, jump, call, skipIfByte, skipUnlessByte, skipIfSame, loadByte,
   addByte, copy, bitOr, bitAnd, bitXor, add, subtract, shiftRight, subtractFrom, shiftLeft,
   skipUnlessSame, loadIndex, jumpWithOffset, random, draw, skipIfPressed, skipUnlessPressed,
   readDelay, awaitKey, setDelay, setSound, addIndex, selectGlyph, storeDecimal, storeRegisters,
   loadRegisters, unknown]

theorem mem_all (operation : Operation) : operation ∈ all := by
  cases operation <;> decide

/-- The assembler mnemonic of an operation, with its operands where one mnemonic has several forms.
-/
def name : Operation → String
  | clearScreen => "CLS"
  | returnFromCall => "RET"
  | jump => "JP"
  | call => "CALL"
  | skipIfByte => "SE_BYTE"
  | skipUnlessByte => "SNE_BYTE"
  | skipIfSame => "SE_REG"
  | loadByte => "LD_BYTE"
  | addByte => "ADD_BYTE"
  | copy => "LD_REG"
  | bitOr => "OR"
  | bitAnd => "AND"
  | bitXor => "XOR"
  | add => "ADD_REG"
  | subtract => "SUB"
  | shiftRight => "SHR"
  | subtractFrom => "SUBN"
  | shiftLeft => "SHL"
  | skipUnlessSame => "SNE_REG"
  | loadIndex => "LD_I"
  | jumpWithOffset => "JP_V0"
  | random => "RND"
  | draw => "DRW"
  | skipIfPressed => "SKP"
  | skipUnlessPressed => "SKNP"
  | readDelay => "LD_VX_DT"
  | awaitKey => "LD_VX_K"
  | setDelay => "LD_DT_VX"
  | setSound => "LD_ST_VX"
  | addIndex => "ADD_I"
  | selectGlyph => "LD_F"
  | storeDecimal => "LD_B"
  | storeRegisters => "LD_MEM_VX"
  | loadRegisters => "LD_VX_MEM"
  | unknown => "UNKNOWN"

end Operation

end ChipEight
