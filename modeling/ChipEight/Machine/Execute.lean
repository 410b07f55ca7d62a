import ChipEight.Machine.Basic

/-!
What each operation does. The program counter has already been moved past the instruction.
Operations that set a flag write it last, so VF holds the flag even where VF is also the target.
-/

namespace ChipEight.Machine

def skipIf (condition : Bool) : Step Machine Unit :=
  if condition then advance else pure ()

/-- Put a result into a register and then a flag into VF. -/
def putWithFlag (x result : Int) (flag : Bool) : Step Machine Unit := do
  put x result
  put flagRegister.val (if flag then 1 else 0)

/-- Put the lowest key that is down into a register, or suspend the machine until there is one. -/
def waitForKey (x : Fin 16) : Step Machine Unit := do
  let machine ← Step.get
  match ← Step.ofExcept machine.keypad.first with
  | some key => put x.val key
  | none => do
      Step.modify fun machine => { machine with awaiting := some x.val }
      Step.note (.awaitingKey x)

/-- Put the lowest key that is down into the register that waits for it. -/
def resume (x : Int) : Step Machine Unit := do
  let machine ← Step.get
  match ← Step.ofExcept machine.keypad.first with
  | some key => do
      put x key
      Step.modify fun machine => { machine with awaiting := none }
  | none => pure ()

/-- Draw the sprite at I of the given height; VF tells whether a lit cell was met. -/
def drawSprite (x y height : Nat) : Step Machine Unit := do
  let machine ← Step.get
  let sprite ← onMemory (Memory.readFrom machine.index height)
  put flagRegister.val 0
  let hit ← onDisplay (Display.draw x y (sprite.map fun byte => (byte.toNat : Int)))
  if hit then put flagRegister.val 1 else pure ()

/-- Whether the key is down whose number a register holds. -/
def keyDown (x : Int) : Step Machine Bool := do
  let machine ← Step.get
  let number ← value x
  Step.ofExcept (machine.keypad.get number)

def execute (i : Instruction) : Step Machine Unit := do
  let machine ← Step.get
  let x : Int := i.x.val
  let y : Int := i.y.val
  match i.operation with
  | .clearScreen => onDisplay (Step.modify Display.clear)
  | .returnFromCall => do
      let address ← onStack CallStack.pop
      jumpTo address
  | .jump => jumpTo i.nnn
  | .call => do
      onStack (CallStack.push machine.pc)
      jumpTo i.nnn
  | .skipIfByte => do
      let vx ← value x
      skipIf (vx == i.nn)
  | .skipUnlessByte => do
      let vx ← value x
      skipIf (vx != i.nn)
  | .skipIfSame => do
      let vx ← value x
      let vy ← value y
      skipIf (vx == vy)
  | .skipUnlessSame => do
      let vx ← value x
      let vy ← value y
      skipIf (vx != vy)
  | .loadByte => put x i.nn
  | .addByte => do
      let vx ← value x
      put x (Bits.mask (vx + i.nn) byteMask)
  | .copy => do
      let vy ← value y
      put x vy
  | .bitOr => do
      let vx ← value x
      let vy ← value y
      put x (vx ||| vy : Nat)
  | .bitAnd => do
      let vx ← value x
      let vy ← value y
      put x (vx &&& vy : Nat)
  | .bitXor => do
      let vx ← value x
      let vy ← value y
      put x (vx ^^^ vy : Nat)
  | .add => do
      let vx ← value x
      let vy ← value y
      putWithFlag x (Bits.mask (vx + vy) byteMask) (0xFF < vx + vy)
  | .subtract => do
      let vx ← value x
      let vy ← value y
      putWithFlag x (Bits.mask (vx - vy : Int) byteMask) (vy ≤ vx)
  | .subtractFrom => do
      let vx ← value x
      let vy ← value y
      putWithFlag x (Bits.mask (vy - vx : Int) byteMask) (vx ≤ vy)
  | .shiftRight => do
      let vx ← value x
      putWithFlag x (vx >>> 1 : Nat) (vx &&& 1 == 1)
  | .shiftLeft => do
      let vx ← value x
      putWithFlag x (Bits.mask (vx <<< 1 : Nat) byteMask) (vx &&& 0x80 != 0)
  | .loadIndex => pointTo i.nnn
  | .jumpWithOffset => do
      let offset ← value offsetRegister.val
      jumpTo (Bits.mask (offset + i.nnn) wordMask)
  | .random => do
      let byte ← onRandom RandomBytes.draw
      put x (byte.toNat &&& i.nn : Nat)
  | .draw => do
      let vx ← value x
      let vy ← value y
      drawSprite vx vy i.n
  | .skipIfPressed => do
      let down ← keyDown x
      skipIf down
  | .skipUnlessPressed => do
      let down ← keyDown x
      skipIf (!down)
  | .readDelay => put x machine.timers.delay
  | .awaitKey => waitForKey i.x
  | .setDelay => do
      let vx ← value x
      Step.modify fun machine => { machine with timers := { machine.timers with delay := vx } }
  | .setSound => do
      let vx ← value x
      Step.modify fun machine => { machine with timers := { machine.timers with sound := vx } }
  | .addIndex => do
      let vx ← value x
      pointTo (Bits.mask (machine.index + vx) wordMask)
  | .selectGlyph => do
      let vx ← value x
      pointTo (fontStart + vx * fontSpriteHeight)
  | .storeDecimal => do
      let vx ← value x
      onMemory (Memory.writeFrom machine.index
        [(vx / 100 : Nat), (vx / 10 % 10 : Nat), (vx % 10 : Nat)])
  | .storeRegisters => do
      let values ← onRegisters (Registers.valuesFrom 0 (i.x + 1))
      onMemory (Memory.writeFrom machine.index (values.map Nat.cast))
  | .loadRegisters => do
      let bytes ← onMemory (Memory.readFrom machine.index (i.x + 1))
      onRegisters (Registers.putFrom 0 bytes)
  | .unknown => Step.note (.unknownOpcode i.opcode)

end ChipEight.Machine
