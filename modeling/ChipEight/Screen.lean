import ChipEight.Display
import ChipEight.Host
import ChipEight.Surface

/-!
The window: a surface on which every cell of a display is a square, painted with the numbers that
its window system keeps.
-/

namespace ChipEight

structure Screen where
  windows : WindowSystem
  /-- The side of a cell, in pixels. -/
  scale : Int
  surface : Surface

namespace Screen

/-- The black window that a window system opens for a grid of cells. -/
def open? (windows : WindowSystem) (width height scale : Int) : Except String Screen :=
  (windows.opened (width * scale) (height * scale)).map fun (width, height) =>
    ⟨windows, scale, .filled width height false⟩

def paintCell (windows : WindowSystem) (scale : Int) (x y : Nat) (surface : Surface) : Surface :=
  let side := windows.kept scale
  surface.paintRect (windows.kept (x * scale)) (windows.kept (y * scale)) side side

/-- Paint the lit cells of one row of the display. -/
def paintCells (windows : WindowSystem) (scale : Int) (y : Nat) (row : List UInt8)
    (surface : Surface) : Surface :=
  row.zipIdx.foldl
    (fun surface (cell, x) => if cell != 0 then paintCell windows scale x y surface else surface)
    surface

/-- Black out the window and paint the lit cells of a display. -/
def render (screen : Screen) (display : Display) : Screen :=
  { screen with
    surface := display.rows.zipIdx.foldl
      (fun surface (row, y) => paintCells screen.windows screen.scale y row surface)
      (.filled screen.surface.width screen.surface.height false) }

end Screen

end ChipEight
