/-!
A surface of black and white pixels, row by row from the top left.
-/

namespace ChipEight

structure Surface where
  width : Nat
  height : Nat
  pixels : Array Bool
  deriving DecidableEq

namespace Surface

def filled (width height : Nat) (white : Bool) : Surface :=
  ⟨width, height, Array.replicate (width * height) white⟩

/-- Whether a pixel is white; outside the surface all is black. -/
def pixel (surface : Surface) (x y : Nat) : Bool :=
  if x < surface.width then (surface.pixels[y * surface.width + x]?).getD false else false

/-- Paint the pixels of a row from one column up to another. -/
def paintRow (width y left right : Nat) (pixels : Array Bool) : Array Bool :=
  (List.range (right - left)).foldl
    (fun pixels column => pixels.setIfInBounds (y * width + (left + column)) true) pixels

/-- Paint a rectangle white, as far as it lies on the surface; one whose width or height is not
positive has no pixels. -/
def paintRect (surface : Surface) (x y width height : Int) : Surface :=
  let left := x.toNat
  let right := min (x + width).toNat surface.width
  let top := y.toNat
  let bottom := min (y + height).toNat surface.height
  { surface with
    pixels := (List.range (bottom - top)).foldl
      (fun pixels row => paintRow surface.width (top + row) left right pixels) surface.pixels }

def rows (surface : Surface) : List (List Bool) :=
  (List.range surface.height).map fun y =>
    (surface.pixels.extract (y * surface.width) ((y + 1) * surface.width)).toList

end Surface

end ChipEight
