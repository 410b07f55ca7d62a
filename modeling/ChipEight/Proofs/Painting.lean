import ChipEight.Surface

/-!
Painting on a surface, pixel by pixel: painters that turn exactly the pixels of an area white, and
how they are put together.
-/

namespace ChipEight.Surface

variable {width height : Nat}

/-- A surface of a given size, with room for exactly its pixels. -/
structure Sized (width height : Nat) (surface : Surface) : Prop where
  width_eq : surface.width = width
  height_eq : surface.height = height
  size_eq : surface.pixels.size = width * height

/-- On surfaces of a given size, a painter turns the pixels of an area white and leaves the others
as they are. -/
def Paints (width height : Nat) (area : Nat → Nat → Prop) (paint : Surface → Surface) : Prop :=
  ∀ surface, Sized width height surface →
    Sized width height (paint surface) ∧
      ∀ x < width, ∀ y < height,
        (paint surface).pixel x y = true ↔ surface.pixel x y = true ∨ area x y

theorem place_inj {x y x' y' : Nat} (hx : x < width) (hx' : x' < width) :
    y * width + x = y' * width + x' ↔ x = x' ∧ y = y' := by
  constructor
  · intro hplace
    have hrow : ∀ {x y : Nat}, x < width → (y * width + x) / width = y := by
      intro x y hx
      rw [Nat.mul_comm y, Nat.mul_add_div (by omega), Nat.div_eq_of_lt hx, Nat.add_zero]
    have hy : y = y' :=
      calc
        y = (y * width + x) / width := (hrow hx).symm
        _ = (y' * width + x') / width := by rw [hplace]
        _ = y' := hrow hx'
    subst hy
    exact ⟨by omega, rfl⟩
  · rintro ⟨rfl, rfl⟩
    rfl

theorem place_lt {x y : Nat} (hx : x < width) (hy : y < height) :
    y * width + x < width * height :=
  calc
    y * width + x < y * width + width := Nat.add_lt_add_left hx _
    _ = (y + 1) * width := (Nat.add_one_mul y width).symm
    _ ≤ height * width := Nat.mul_le_mul_right width hy
    _ = width * height := Nat.mul_comm height width

theorem sized_filled (width height : Nat) (white : Bool) :
    Sized width height (filled width height white) :=
  ⟨rfl, rfl, Array.size_replicate⟩

theorem pixel_black (x y : Nat) : (filled width height false).pixel x y = false := by
  simp only [pixel, filled, Array.getElem?_replicate]
  split
  · split <;> rfl
  · rfl

namespace Paints

variable {area area' : Nat → Nat → Prop} {paint paint' : Surface → Surface}

theorem congr (hpaint : Paints width height area paint)
    (harea : ∀ x < width, ∀ y < height, area x y ↔ area' x y) :
    Paints width height area' paint := by
  intro surface hsurface
  obtain ⟨hsized, hpixel⟩ := hpaint surface hsurface
  refine ⟨hsized, fun x hx y hy => ?_⟩
  rw [hpixel x hx y hy, harea x hx y hy]

theorem of_eq (hpaint : Paints width height area paint)
    (heq : ∀ surface, Sized width height surface → paint' surface = paint surface) :
    Paints width height area paint' := by
  intro surface hsurface
  rw [heq surface hsurface]
  exact hpaint surface hsurface

theorem nothing : Paints width height (fun _ _ => False) fun surface => surface :=
  fun _ hsurface => ⟨hsurface, fun _ _ _ _ => by simp⟩

theorem comp (hpaint : Paints width height area paint)
    (hpaint' : Paints width height area' paint') :
    Paints width height (fun x y => area x y ∨ area' x y) fun surface =>
      paint' (paint surface) := by
  intro surface hsurface
  obtain ⟨hsized, hpixel⟩ := hpaint surface hsurface
  obtain ⟨hsized', hpixel'⟩ := hpaint' (paint surface) hsized
  refine ⟨hsized', fun x hx y hy => ?_⟩
  rw [hpixel' x hx y hy, hpixel x hx y hy, or_assoc]

theorem foldl {α : Type} {areas : α → Nat → Nat → Prop} {paints : α → Surface → Surface}
    {l : List α} (hpaints : ∀ a ∈ l, Paints width height (areas a) (paints a)) :
    Paints width height (fun x y => ∃ a ∈ l, areas a x y) fun surface =>
      l.foldl (fun surface a => paints a surface) surface := by
  induction l with
  | nil => exact nothing.congr fun x _ y _ => by simp
  | cons a rest ih =>
      have hfirst := hpaints a List.mem_cons_self
      have hrest := ih fun b hb => hpaints b (List.mem_cons_of_mem a hb)
      refine ((hfirst.comp hrest).congr fun x _ y _ => ?_).of_eq fun _ _ => rfl
      simp only [List.mem_cons, exists_eq_or_imp]

end Paints

def dot (x y : Nat) (surface : Surface) : Surface :=
  { surface with pixels := surface.pixels.setIfInBounds (y * surface.width + x) true }

/-- Turn the pixels of a row white from one column up to another. -/
def line (y left right : Nat) (surface : Surface) : Surface :=
  { surface with pixels := paintRow surface.width y left right surface.pixels }

theorem paints_dot {x : Nat} (y : Nat) (hx : x < width) :
    Paints width height (fun x' y' => x' = x ∧ y' = y) (dot x y) := by
  rintro surface ⟨rfl, rfl, hsize⟩
  refine ⟨⟨rfl, rfl, by rw [dot, Array.size_setIfInBounds, hsize]⟩, fun x' hx' y' hy' => ?_⟩
  have hplace : y' * surface.width + x' < surface.pixels.size := hsize ▸ place_lt hx' hy'
  simp only [dot, pixel, if_pos hx', Array.getElem?_setIfInBounds, place_inj hx hx']
  by_cases hsame : x = x' ∧ y = y'
  · obtain ⟨rfl, rfl⟩ := hsame
    simp [hplace]
  · have hother : ¬(x' = x ∧ y' = y) := fun h => hsame ⟨h.1.symm, h.2.symm⟩
    simp [hsame, hother]

/-- Painters that look at nothing but the width can work on the pixels alone. -/
theorem foldl_pixels {α : Type} (surface : Surface) (l : List α) (paint : α → Surface → Surface)
    (step : Array Bool → α → Array Bool)
    (hstep : ∀ pixels a, paint a { surface with pixels := pixels }
      = { surface with pixels := step pixels a }) :
    { surface with pixels := l.foldl step surface.pixels }
      = l.foldl (fun surface a => paint a surface) surface :=
  (List.foldl_hom (fun pixels => { surface with pixels := pixels }) hstep).symm

theorem paints_line (y left right : Nat) (hright : right ≤ width) :
    Paints width height (fun x' y' => (left ≤ x' ∧ x' < right) ∧ y' = y) (line y left right) := by
  have hdots : ∀ column ∈ List.range (right - left),
      Paints width height (fun x' y' => x' = left + column ∧ y' = y) (dot (left + column) y) := by
    intro column hcolumn
    rw [List.mem_range] at hcolumn
    exact paints_dot y (by omega)
  refine ((Paints.foldl hdots).congr fun x' _ y' _ => ?_).of_eq fun surface _ => ?_
  · constructor
    · rintro ⟨column, hcolumn, rfl, rfl⟩
      rw [List.mem_range] at hcolumn
      exact ⟨by omega, rfl⟩
    · rintro ⟨hcolumn, rfl⟩
      exact ⟨x' - left, List.mem_range.mpr (by omega), by omega, rfl⟩
  · exact foldl_pixels surface _ _ _ fun _ _ => rfl

/-- A rectangle is painted as far as it lies on the surface. -/
theorem paints_rect (x y across down : Int) :
    Paints width height
      (fun x' y' => (x ≤ x' ∧ x' < x + across) ∧ y ≤ y' ∧ y' < y + down) fun surface =>
        surface.paintRect x y across down := by
  let right := min (x + across).toNat width
  have hrows : ∀ row ∈ List.range (min (y + down).toNat height - y.toNat),
      Paints width height (fun x' y' => (x.toNat ≤ x' ∧ x' < right) ∧ y' = y.toNat + row)
        (line (y.toNat + row) x.toNat right) :=
    fun row _ => paints_line (y.toNat + row) x.toNat right (Nat.min_le_right _ width)
  refine ((Paints.foldl hrows).congr fun x' hx' y' hy' => ?_).of_eq fun surface hsurface => ?_
  · constructor
    · rintro ⟨row, hrow, hcolumn, rfl⟩
      rw [List.mem_range] at hrow
      omega
    · rintro ⟨hcolumn, hrow⟩
      exact ⟨y' - y.toNat, List.mem_range.mpr (by omega), by omega, by omega⟩
  · obtain ⟨rfl, rfl, hsize⟩ := hsurface
    exact foldl_pixels surface _ _ _ fun _ _ => rfl

end ChipEight.Surface
