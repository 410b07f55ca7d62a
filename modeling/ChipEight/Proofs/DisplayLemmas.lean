import ChipEight.Display
import ChipEight.Proofs.Masks
import Mathlib.Algebra.Order.Ring.Int

/-!
Displays that have cells: every column and row within the edges has a place of its own, and every
cell is dark or lit.
-/

namespace ChipEight.Display

/-- A display with at least one cell and exactly the cells of its rows, each of them 0 or 1. -/
structure Proper (display : Display) : Prop where
  width_pos : 0 < display.width
  height_pos : 0 < display.height
  size_eq : (display.cells.size : Int) = display.width * display.height
  bits : ∀ cell ∈ display.cells, IsBit cell

instance (display : Display) : Decidable display.Proper :=
  decidable_of_iff
    (0 < display.width ∧ 0 < display.height ∧
      (display.cells.size : Int) = display.width * display.height ∧
      (display.cells.toList.all fun cell => decide (IsBit cell)) = true)
    ⟨fun h => ⟨h.1, h.2.1, h.2.2.1, all_isBit_iff.mp h.2.2.2⟩,
      fun h => ⟨h.width_pos, h.height_pos, h.size_eq, all_isBit_iff.mpr h.bits⟩⟩

variable {display : Display} {x y : Int}

theorem Proper.ofCells {cells : Array UInt8} (hproper : display.Proper)
    (hsize : cells.size = display.cells.size) (hbits : ∀ cell ∈ cells, IsBit cell) :
    { display with cells := cells }.Proper :=
  ⟨hproper.width_pos, hproper.height_pos, by rw [hsize]; exact hproper.size_eq, hbits⟩

theorem proper_blank {width height : Int} (hwidth : 0 < width) (hheight : 0 < height) :
    (blank width height).Proper where
  width_pos := hwidth
  height_pos := hheight
  size_eq := by
    rw [blank, Array.size_replicate]
    exact Int.toNat_of_nonneg (Int.mul_nonneg hwidth.le hheight.le)
  bits := fun _ hcell => .inl (Array.mem_replicate.mp hcell).2

theorem position_lt_size (hproper : display.Proper) (hx : x < display.width)
    (hy : y < display.height) : display.position x y < display.cells.size :=
  calc
    y * display.width + x < y * display.width + display.width := Int.add_lt_add_left hx _
    _ = (y + 1) * display.width := by rw [Int.add_mul, Int.one_mul]
    _ ≤ display.height * display.width :=
      Int.mul_le_mul_of_nonneg_right (by omega) hproper.width_pos.le
    _ = display.width * display.height := Int.mul_comm _ _
    _ = display.cells.size := hproper.size_eq.symm

theorem position_nonneg (hproper : display.Proper) (hx : 0 ≤ x) (hy : 0 ≤ y) :
    0 ≤ display.position x y :=
  Int.add_nonneg (Int.mul_nonneg hy hproper.width_pos.le) hx

/-- Clearing leaves as many cells as the display has rows and columns for, and all of them dark. -/
theorem cells_clear (display : Display) :
    display.clear.cells = Array.replicate (display.width * display.height).toNat 0 := by
  simp [clear, Store.splice]

theorem size_clear (hproper : display.Proper) :
    (display.clear.cells.size : Int) = display.cells.size := by
  have harea : 0 ≤ display.width * display.height :=
    Int.mul_nonneg hproper.width_pos.le hproper.height_pos.le
  rw [cells_clear, Array.size_replicate, hproper.size_eq]
  omega

theorem bits_clear (display : Display) : ∀ cell ∈ display.clear.cells, IsBit cell := by
  rw [cells_clear]
  exact fun _ hcell => .inl (Array.mem_replicate.mp hcell).2

end ChipEight.Display
