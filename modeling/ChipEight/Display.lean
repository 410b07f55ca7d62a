import ChipEight.Host
import ChipEight.Step
import ChipEight.Store
import ChipEight.Text.Report

/-!
The display: a grid of cells, row by row from the top left, each a byte that is one while the cell
is lit, and a flag that tells whether it was drawn on or cleared since the flag was last taken. A
sprite is combined with the cells by exclusive or: its corner wraps around the grid, but the sprite
itself is cut off at the right and lower edge.
-/

namespace ChipEight

structure Display where
  width : Int
  height : Int
  cells : Array UInt8
  dirty : Bool
  deriving DecidableEq

namespace Display

def blank (width height : Int) : Display :=
  ⟨width, height, Array.replicate (width * height).toNat 0, false⟩

/-- A blank display, if there is room for its cells. -/
def ofSize? (room : Room) (width height : Int) : Except Fault Display :=
  match room.check (width * height) 1 with
  | .error fault => .error fault
  | .ok () => if width * height < 0 then .error .negativeScreen else .ok (blank width height)

/-- The position of a cell in the row-by-row order. -/
def position (display : Display) (x y : Int) : Int :=
  y * display.width + x

def pixel (display : Display) (x y : Int) : Except Fault UInt8 :=
  Store.item display.cells (display.position x y)

def rows (display : Display) : List (List UInt8) :=
  (List.range display.height.toNat).map fun y =>
    (display.cells.extract (y * display.width.toNat) ((y + 1) * display.width.toNat)).toList

def lit (display : Display) : Nat :=
  display.cells.toList.foldr (fun cell lit => cell.toNat + lit) 0

def clear (display : Display) : Display :=
  let dark := Array.replicate (display.width * display.height).toNat 0
  { display with cells := Store.splice display.cells 0 display.cells.size dark, dirty := true }

/-- Turn a cell over and tell whether it was lit. -/
def flip (x y : Int) : Step Display Bool := do
  let display ← Step.get
  let cell ← Step.ofExcept (Store.item display.cells (display.position x y))
  let cells ← Step.ofExcept
    (Store.assignByte display.cells (display.position x y) (cell.toNat ^^^ 1 : Nat))
  Step.modify fun display => { display with cells := cells }
  pure (cell == 1)

/-- Whether a sprite row covers its column; the leftmost column is bit 7. -/
def covers (bits : Int) (column : Nat) : Bool :=
  Bits.mask bits (0x80 >>> column) != 0

/-- Draw the given columns of a sprite row up to the right edge, and tell whether a lit cell was
met. -/
def drawColumns (x y bits : Int) : List Nat → Step Display Bool
  | [] => pure false
  | column :: rest => do
      let display ← Step.get
      if display.width ≤ x + column then
        pure false
      else do
        let hit ← if covers bits column then flip (x + column) y else pure false
        let more ← drawColumns x y bits rest
        pure (hit || more)

/-- Draw sprite rows downwards up to the lower edge, and tell whether a lit cell was met. -/
def drawRows (x y : Int) : List Int → Step Display Bool
  | [] => pure false
  | bits :: rest => do
      let display ← Step.get
      if display.height ≤ y then
        pure false
      else do
        let hit ← drawColumns x y bits (List.range spriteWidth)
        let more ← drawRows x (y + 1) rest
        pure (hit || more)

/-- Draw a sprite and tell whether a lit cell was met. -/
def draw (x y : Int) (sprite : List Int) : Step Display Bool := do
  let display ← Step.get
  if display.width = 0 ∨ display.height = 0 then
    Step.fail .emptyScreen
  else do
    let hit ← drawRows (x % display.width) (y % display.height) sprite
    Step.modify fun display => { display with dirty := true }
    pure hit

/-- The flag; it is taken down. -/
def takeDirty : Step Display Bool := do
  let display ← Step.get
  Step.modify fun display => { display with dirty := false }
  pure display.dirty

def report (display : Display) : String :=
  s!"Display({display.width}x{display.height}, lit={display.lit}, dirty={Report.truth display.dirty})"

end Display

end ChipEight
