import ChipEight.Instruction

/-!
Notes: what a traced machine writes down while it works, and the line of text of each note.
-/

namespace ChipEight

inductive Note where
  /-- An address above the memory was used. -/
  | outOfRange (address : Int)
  | loaded (length : Nat)
  | executing (address : Int) (instruction : Instruction)
  | unknownOpcode (opcode : Int)
  | awaitingKey (register : Fin 16)
  deriving DecidableEq

namespace Note

def line : Note → String
  | outOfRange address =>
      s!"memory access out of range at 0x{Hex.padded 4 address}, wrapped to "
        ++ s!"0x{Hex.padded 3 (Bits.mask address addressMask)}"
  | loaded length => s!"{length} bytes of ROM loaded at 0x{Hex.padded 3 programStart}"
  | executing address instruction =>
      s!"mem_addr: 0x{Hex.padded 4 address}    instruction: {instruction.assembly}"
  | unknownOpcode opcode => s!"unknown opcode 0x{Hex.padded 4 opcode} skipped"
  | awaitingKey register => s!"waiting for a keypress to store in V{register.val}"

end Note

end ChipEight
