import ChipEight.Proofs.Painting
import ChipEight.Proofs.SpriteImage
import ChipEight.Screen
import Mathlib.Tactic.Zify

/-!
The window as a magnification of a display. What is asked of a window system is little: if it opens
a window, the window has the size that was asked for, and rectangles on it are painted with the
numbers they are given.
-/

namespace ChipEight

/-- Numbers up to a bound are kept as they are. -/
def WindowSystem.KeepsUpTo (windows : WindowSystem) (bound : Int) : Prop :=
  ∀ number, 0 ≤ number → number ≤ bound → windows.kept number = number

/-- Asked for a window of some size, a window system refuses or opens exactly that window. -/
def WindowSystem.Faithful (windows : WindowSystem) (width height : Int) : Prop :=
  ∀ size, windows.opened width height = .ok size →
    size = (width.toNat, height.toNat) ∧ windows.KeepsUpTo (max width height)

/-- Every cell of a display is a square of pixels, white if the cell is lit. -/
structure Surface.Magnifies (scale : Int) (surface : Surface) (display : Display) : Prop where
  sized : surface.Sized (display.width * scale).toNat (display.height * scale).toNat
  pixel_eq : ∀ x < surface.width, ∀ y < surface.height,
    display.pixel (x / scale) (y / scale) = .ok (surface.pixel x y).toUInt8

namespace WindowSystem

theorem faithful_boundless (width height : Int) : boundless.Faithful width height := by
  intro size hopened
  have hsize : (width.toNat, height.toNat) = size := Except.ok.inj hopened
  exact ⟨hsize.symm, fun _ _ _ => rfl⟩

end WindowSystem

/-! ### The rows of a display -/

namespace Display

variable {display : Display} {x y : Nat}

theorem has_of_lt (hx : x < display.width.toNat) (hy : y < display.height.toNat) :
    display.Has x y :=
  ⟨by omega, by omega⟩

theorem cell_blank (width height x y : Int) : (blank width height).cell x y = false := by
  simp only [cell, blank, Array.getElem?_replicate]
  split <;> rfl

theorem lit_rows_iff (hproper : display.Proper) (hx : x < display.width.toNat)
    (hy : y < display.height.toNat) :
    (∃ row, display.rows[y]? = some row ∧ ∃ cell, row[x]? = some cell ∧ cell ≠ 0)
      ↔ display.cell x y = true := by
  obtain ⟨place, hplace, hposition, hbyte⟩ := exists_place hproper (has_of_lt hx hy)
  have hrow : display.rows[y]? = some
      (display.cells.extract (y * display.width.toNat) ((y + 1) * display.width.toNat)).toList := by
    simp [rows, hy]
  have hnumber : y * display.width.toNat + x = place := by
    have hwidth : (display.width.toNat : Int) = display.width :=
      Int.toNat_of_nonneg hproper.width_pos.le
    rw [position, ← hwidth] at hposition
    exact_mod_cast hposition
  have hcell : (display.cells.extract (y * display.width.toNat)
      ((y + 1) * display.width.toNat)).toList[x]? = some (display.cell x y).toUInt8 := by
    have hnext : (y + 1) * display.width.toNat = y * display.width.toNat + display.width.toNat :=
      Nat.add_one_mul y _
    rw [Array.getElem?_toList, Array.getElem?_extract_of_lt (by omega), ← hbyte]
    simp only [hnumber]
  simp only [hrow, Option.some.injEq, exists_eq_left', hcell]
  cases display.cell x y <;> decide

theorem length_of_mem_rows {row : List UInt8} (hrow : row ∈ display.rows) :
    row.length ≤ display.width.toNat := by
  simp only [rows, List.mem_map] at hrow
  obtain ⟨y, -, rfl⟩ := hrow
  have hnext : (y + 1) * display.width.toNat = y * display.width.toNat + display.width.toNat :=
    Nat.add_one_mul y _
  rw [Array.length_toList, Array.size_extract]
  omega

end Display

/-! ### Painting a display -/

namespace Screen

variable {windows : WindowSystem} {bound : Int} {width height : Nat}

theorem paints_cell {scale : Nat} (hkeep : windows.KeepsUpTo bound) (hpos : 0 < scale)
    {x y : Nat} (hx : ((x + 1 : Nat) : Int) * scale ≤ bound)
    (hy : ((y + 1 : Nat) : Int) * scale ≤ bound) :
    Surface.Paints width height (fun px py => px / scale = x ∧ py / scale = y)
      (paintCell windows scale x y) := by
  have hleft : ((x + 1 : Nat) : Int) * scale = x * scale + scale := by
    rw [Nat.cast_add_one, Int.add_mul, Int.one_mul]
  have htop : ((y + 1 : Nat) : Int) * scale = y * scale + scale := by
    rw [Nat.cast_add_one, Int.add_mul, Int.one_mul]
  have hx' : (0 : Int) ≤ x * scale := by exact_mod_cast Nat.zero_le _
  have hy' : (0 : Int) ≤ y * scale := by exact_mod_cast Nat.zero_le _
  have hsquare : Surface.Paints width height
      (fun px py => ((x * scale : Int) ≤ px ∧ (px : Int) < x * scale + scale) ∧
        (y * scale : Int) ≤ py ∧ (py : Int) < y * scale + scale)
      fun surface => surface.paintRect (x * scale) (y * scale) scale scale :=
    Surface.paints_rect _ _ _ _
  refine (hsquare.congr fun px _ py _ => ?_).of_eq fun surface _ => ?_
  · rw [Nat.div_eq_iff hpos, Nat.div_eq_iff hpos]
    zify
    omega
  · rw [paintCell, hkeep scale (by omega) (by omega), hkeep (x * scale) hx' (by omega),
      hkeep (y * scale) hy' (by omega)]

theorem paints_cells {scale : Nat} (hkeep : windows.KeepsUpTo bound) (hpos : 0 < scale)
    {y : Nat} (row : List UInt8) (hrow : (row.length : Int) * scale ≤ bound)
    (hy : ((y + 1 : Nat) : Int) * scale ≤ bound) :
    Surface.Paints width height
      (fun px py => (∃ cell, row[px / scale]? = some cell ∧ cell ≠ 0) ∧ py / scale = y)
      (paintCells windows scale y row) := by
  have hcells : ∀ cell ∈ row.zipIdx,
      Surface.Paints width height
        (fun px py => cell.1 ≠ 0 ∧ px / scale = cell.2 ∧ py / scale = y)
        (fun surface =>
          if cell.1 != 0 then paintCell windows scale cell.2 y surface else surface) := by
    intro cell hcell
    by_cases hlit : cell.1 ≠ 0
    · have hlt : cell.2 < row.length :=
        (List.getElem?_eq_some_iff.mp (List.mem_zipIdx_iff_getElem?.mp hcell)).1
      have hx : ((cell.2 + 1 : Nat) : Int) * scale ≤ bound :=
        calc
          ((cell.2 + 1 : Nat) : Int) * scale ≤ row.length * scale :=
            Int.mul_le_mul_of_nonneg_right (by omega) (by omega)
          _ ≤ bound := hrow
      simp only [hlit, bne_iff_ne, ne_eq, not_false_eq_true, if_true, true_and]
      exact paints_cell hkeep hpos hx hy
    · simp only [hlit, bne_iff_ne, if_false, false_and]
      exact .nothing
  refine (Surface.Paints.foldl hcells).congr fun px _ py _ => ?_
  constructor
  · rintro ⟨⟨cell, x⟩, hmem, hlit, rfl, hrow⟩
    exact ⟨⟨cell, List.mem_zipIdx_iff_getElem?.mp hmem, hlit⟩, hrow⟩
  · rintro ⟨⟨cell, hmem, hlit⟩, hrow⟩
    exact ⟨(cell, px / scale), List.mem_zipIdx_iff_getElem?.mpr hmem, hlit, rfl, hrow⟩

/-- Paint the lit cells of all rows of a display. -/
def paintRows (windows : WindowSystem) (scale : Int) (rows : List (List UInt8))
    (surface : Surface) : Surface :=
  rows.zipIdx.foldl (fun surface (row, y) => paintCells windows scale y row surface) surface

theorem surface_render (screen : Screen) (display : Display) :
    (screen.render display).surface = paintRows screen.windows screen.scale display.rows
      (.filled screen.surface.width screen.surface.height false) := rfl

theorem paints_rows {scale : Nat} (hkeep : windows.KeepsUpTo bound) (hpos : 0 < scale)
    (rows : List (List UInt8)) (hrows : ∀ row ∈ rows, (row.length : Int) * scale ≤ bound)
    (hbound : (rows.length : Int) * scale ≤ bound) :
    Surface.Paints width height
      (fun px py => ∃ row, rows[py / scale]? = some row ∧
        ∃ cell, row[px / scale]? = some cell ∧ cell ≠ 0)
      (paintRows windows scale rows) := by
  have hpaints : ∀ entry ∈ rows.zipIdx,
      Surface.Paints width height
        (fun px py => (∃ cell, entry.1[px / scale]? = some cell ∧ cell ≠ 0) ∧ py / scale = entry.2)
        (paintCells windows scale entry.2 entry.1) := by
    intro entry hentry
    have hmem := List.mem_zipIdx_iff_getElem?.mp hentry
    have hlt : entry.2 < rows.length := (List.getElem?_eq_some_iff.mp hmem).1
    have hy : ((entry.2 + 1 : Nat) : Int) * scale ≤ bound :=
      calc
        ((entry.2 + 1 : Nat) : Int) * scale ≤ rows.length * scale :=
          Int.mul_le_mul_of_nonneg_right (by omega) (by omega)
        _ ≤ bound := hbound
    exact paints_cells hkeep hpos entry.1 (hrows _ (List.mem_of_getElem? hmem)) hy
  refine (Surface.Paints.foldl hpaints).congr fun px _ py _ => ?_
  constructor
  · rintro ⟨⟨row, y⟩, hmem, hlit, rfl⟩
    exact ⟨row, List.mem_zipIdx_iff_getElem?.mp hmem, hlit⟩
  · rintro ⟨row, hrow, hlit⟩
    exact ⟨(row, py / scale), List.mem_zipIdx_iff_getElem?.mpr hrow, hlit, rfl⟩

/-- On a surface of the right size, the squares of the lit cells are painted. -/
theorem paints_display {scale : Nat} {display : Display} (hproper : display.Proper)
    (hpos : 0 < scale)
    (hkeep : windows.KeepsUpTo (max (display.width * scale) (display.height * scale))) :
    Surface.Paints (display.width.toNat * scale) (display.height.toNat * scale)
      (fun px py => display.cell (px / scale : Nat) (py / scale : Nat) = true)
      (paintRows windows scale display.rows) := by
  have hrow : ∀ row ∈ display.rows,
      (row.length : Int) * scale ≤ max (display.width * scale) (display.height * scale) := by
    intro row hmem
    have hlength : (row.length : Int) ≤ display.width := by
      have hle := Display.length_of_mem_rows hmem
      have hwidth := hproper.width_pos
      omega
    calc
      (row.length : Int) * scale ≤ display.width * scale :=
        Int.mul_le_mul_of_nonneg_right hlength (by omega)
      _ ≤ max (display.width * scale) (display.height * scale) := Int.le_max_left _ _
  have hrows : (display.rows.length : Int) * scale
      ≤ max (display.width * scale) (display.height * scale) := by
    rw [Display.rows, List.length_map, List.length_range,
      Int.toNat_of_nonneg hproper.height_pos.le]
    exact Int.le_max_right _ _
  refine (paints_rows hkeep hpos display.rows hrow hrows).congr fun px hx py hy => ?_
  exact Display.lit_rows_iff hproper (Nat.div_lt_of_lt_mul (Nat.mul_comm _ scale ▸ hx))
    (Nat.div_lt_of_lt_mul (Nat.mul_comm _ scale ▸ hy))

end Screen

theorem toNat_mul_natCast {n : Int} (hn : 0 < n) (scale : Nat) :
    (n * scale).toNat = n.toNat * scale := by
  obtain ⟨n, rfl⟩ := Int.eq_ofNat_of_zero_le hn.le
  rw [← Nat.cast_mul, Int.toNat_natCast, Int.toNat_natCast]

theorem Surface.magnifies_of_pixel {surface : Surface} {display : Display} {scale : Nat}
    (hproper : display.Proper)
    (hsized : surface.Sized (display.width.toNat * scale) (display.height.toNat * scale))
    (hpixel : ∀ x < display.width.toNat * scale, ∀ y < display.height.toNat * scale,
      surface.pixel x y = display.cell (x / scale : Nat) (y / scale : Nat)) :
    surface.Magnifies scale display := by
  refine ⟨?_, fun x hx y hy => ?_⟩
  · rw [toNat_mul_natCast hproper.width_pos, toNat_mul_natCast hproper.height_pos]
    exact hsized
  · rw [hsized.width_eq] at hx
    rw [hsized.height_eq] at hy
    have hx' : x / scale < display.width.toNat :=
      Nat.div_lt_of_lt_mul (Nat.mul_comm _ scale ▸ hx)
    have hy' : y / scale < display.height.toNat :=
      Nat.div_lt_of_lt_mul (Nat.mul_comm _ scale ▸ hy)
    rw [← Int.natCast_ediv, ← Int.natCast_ediv, hpixel x hx y hy]
    exact Display.pixel_eq_cell hproper (Display.has_of_lt hx' hy')

namespace Screen

/-- Whatever was on it before, a window shows the display that was rendered on it last. -/
theorem magnifies_render {screen : Screen} {display : Display} (hproper : display.Proper)
    (hpos : 1 ≤ screen.scale)
    (hkeep : screen.windows.KeepsUpTo
      (max (display.width * screen.scale) (display.height * screen.scale)))
    (hwidth : screen.surface.width = (display.width * screen.scale).toNat)
    (hheight : screen.surface.height = (display.height * screen.scale).toNat) :
    (screen.render display).surface.Magnifies screen.scale display := by
  obtain ⟨scale, hscale⟩ : ∃ scale : Nat, screen.scale = scale := ⟨screen.scale.toNat, by omega⟩
  rw [hscale, toNat_mul_natCast hproper.width_pos] at hwidth
  rw [hscale, toNat_mul_natCast hproper.height_pos] at hheight
  rw [hscale] at hkeep
  obtain ⟨hsized, hpixel⟩ :=
    paints_display hproper (by omega) hkeep _ (Surface.sized_filled _ _ false)
  rw [surface_render, hscale, hwidth, hheight]
  refine Surface.magnifies_of_pixel hproper hsized fun x hx y hy => ?_
  rw [Bool.eq_iff_iff, hpixel x hx y hy, Surface.pixel_black]
  simp only [Bool.false_eq_true, false_or]

/-- A window that has just been opened shows a blank display. -/
theorem magnifies_opened {windows : WindowSystem} {width height scale : Int} {screen : Screen}
    (hwindows : windows.Faithful (width * scale) (height * scale)) (hwidth : 0 < width)
    (hheight : 0 < height) (hpos : 1 ≤ scale)
    (hopened : open? windows width height scale = .ok screen) :
    screen.surface.Magnifies scale (.blank width height) ∧ screen.windows = windows ∧
      screen.scale = scale ∧ windows.KeepsUpTo (max (width * scale) (height * scale)) := by
  have hproper := Display.proper_blank hwidth hheight
  obtain ⟨scale, rfl⟩ : ∃ s : Nat, scale = s := ⟨scale.toNat, by omega⟩
  rw [open?] at hopened
  cases hsize : windows.opened (width * scale) (height * scale) with
  | error refusal =>
      rw [hsize] at hopened
      cases hopened
  | ok size =>
      obtain ⟨rfl, hkeep⟩ := hwindows size hsize
      rw [hsize] at hopened
      rw [← Except.ok.inj hopened]
      refine ⟨Surface.magnifies_of_pixel hproper ?_ fun x hx y hy => ?_, rfl, rfl, hkeep⟩
      · rw [toNat_mul_natCast hwidth, toNat_mul_natCast hheight]
        exact Surface.sized_filled _ _ false
      · rw [Surface.pixel_black, Display.cell_blank]

end Screen

end ChipEight
