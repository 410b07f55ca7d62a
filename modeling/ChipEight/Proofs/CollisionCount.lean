import ChipEight.Proofs.RepeatedDrawing
import Mathlib.Data.Fintype.Fin

/-!
Counting lit cells. A sprite turns over one cell for every set bit of it that falls on the screen:
each bit that lands on a lit cell puts one out, each other bit lights one. So the number of lit
cells tells the collisions.
-/

namespace ChipEight.Display

instance (display : Display) (x y : Int) : Decidable (display.Has x y) :=
  inferInstanceAs (Decidable ((0 ≤ x ∧ x < display.width) ∧ 0 ≤ y ∧ y < display.height))

def places (display : Display) : Finset (Int × Int) :=
  (Finset.range display.width.toNat ×ˢ Finset.range display.height.toNat).image fun place =>
    ((place.1 : Int), (place.2 : Int))

def litPlaces (display : Display) : Finset (Int × Int) :=
  display.places.filter fun place => display.cell place.1 place.2 = true

def coveredPlaces (display : Display) (drawing : Drawing) : Finset (Int × Int) :=
  display.places.filter fun place => display.coveredBy place.1 place.2 drawing = true

/-- Where a bit of a sprite comes to lie, which is known by its column and its row in the sprite. -/
def landing (display : Display) (drawing : Drawing) (bit : Nat × Nat) : Int × Int :=
  (drawing.x % display.width + bit.1, drawing.y % display.height + bit.2)

/-- The set bits of a sprite that fall on the screen. -/
def bitsOnScreen (display : Display) (drawing : Drawing) : Finset (Nat × Nat) :=
  (Finset.range 8 ×ˢ Finset.range drawing.sprite.length).filter fun bit =>
    (drawing.sprite.getD bit.2 0).testBit (7 - bit.1) = true ∧
      display.Has (display.landing drawing bit).1 (display.landing drawing bit).2

/-- Those of them that land on lit cells. -/
def bitsOnLit (display : Display) (drawing : Drawing) : Finset (Nat × Nat) :=
  (display.bitsOnScreen drawing).filter fun bit =>
    display.cell (display.landing drawing bit).1 (display.landing drawing bit).2 = true

variable {display : Display} {x y : Int} {drawing : Drawing}

theorem mem_places : (x, y) ∈ display.places ↔ display.Has x y := by
  simp only [places, Has, Finset.mem_image, Finset.mem_product, Finset.mem_range, Prod.exists,
    Prod.mk.injEq]
  constructor
  · rintro ⟨column, row, ⟨hcolumn, hrow⟩, rfl, rfl⟩
    omega
  · rintro ⟨hx, hy⟩
    exact ⟨x.toNat, y.toNat, by omega, by omega, by omega⟩

theorem mem_litPlaces :
    (x, y) ∈ display.litPlaces ↔ display.Has x y ∧ display.cell x y = true := by
  rw [litPlaces, Finset.mem_filter, mem_places]

/-! ### Cells by their places -/

theorem sum_bits {bits : List UInt8} (hbits : ∀ bit ∈ bits, IsBit bit) :
    bits.foldr (fun bit sum => bit.toNat + sum) 0 = bits.count 1 := by
  induction bits with
  | nil => rfl
  | cons bit rest ih =>
      have hrest := ih fun other hother => hbits other (List.mem_cons_of_mem bit hother)
      rw [List.foldr_cons, hrest]
      rcases hbits bit List.mem_cons_self with rfl | rfl
      · rw [List.count_cons_of_ne (by decide)]
        exact Nat.zero_add _
      · rw [List.count_cons_self]
        exact Nat.add_comm _ _

theorem lit_eq_card (hproper : display.Proper) : display.lit = display.litPlaces.card := by
  let cells : List.Vector UInt8 display.cells.size := ⟨display.cells.toList, Array.length_toList⟩
  have hcount : (Finset.univ.filter fun k => cells.get k = 1).card = display.lit := by
    rw [Fin.card_filter_univ_eq_vector_get_eq_count, lit,
      sum_bits fun cell hcell => hproper.bits cell (Array.mem_toList_iff.mp hcell)]
    rfl
  have hcell : ∀ k : Fin display.cells.size,
      display.cell ((k.val : Int) % display.width) ((k.val : Int) / display.width) = true
        ↔ cells.get k = 1 := by
    intro k
    obtain ⟨-, hnumber⟩ := has_of_lt_size hproper k.isLt
    have hplace := cell_of_position display.cells hnumber
    rw [hplace, Array.getElem?_eq_getElem k.isLt, Option.getD_some, beq_iff_eq]
    rfl
  rw [← hcount]
  refine Finset.card_bij
    (fun k _ => ((k.val : Int) % display.width, (k.val : Int) / display.width)) ?_ ?_ ?_
  · intro k hlit
    rw [Finset.mem_filter] at hlit
    rw [mem_litPlaces, hcell]
    exact ⟨(has_of_lt_size hproper k.isLt).1, hlit.2⟩
  · intro k _ k' _ hplaces
    obtain ⟨-, hnumber⟩ := has_of_lt_size hproper k.isLt
    obtain ⟨-, hnumber'⟩ := has_of_lt_size hproper k'.isLt
    rw [Prod.mk.injEq] at hplaces
    rw [hplaces.1, hplaces.2, hnumber'] at hnumber
    exact Fin.ext (by omega)
  · rintro ⟨x, y⟩ hlit
    obtain ⟨hxy, hlit⟩ := mem_litPlaces.mp hlit
    obtain ⟨place, hplace, hposition, -⟩ := exists_place hproper hxy
    let k : Fin display.cells.size := ⟨place, hplace⟩
    obtain ⟨hhas, hnumber⟩ := has_of_lt_size hproper k.isLt
    obtain ⟨hcolumn, hrow⟩ := position_inj hhas hxy (hnumber.trans hposition.symm)
    refine ⟨k, ?_, Prod.ext hcolumn hrow⟩
    rw [Finset.mem_filter, ← hcell, hcolumn, hrow]
    exact ⟨Finset.mem_univ k, hlit⟩

/-- Turning over an area puts out its lit cells and lights the others. -/
theorem Turned.lit_add (hproper : display.Proper) {area : Int → Int → Bool} {cells : Array UInt8}
    {hit : Bool} (hturned : display.Turned area cells hit) :
    let covered := display.places.filter fun place => area place.1 place.2 = true
    { display with cells := cells }.lit + 2 * (covered ∩ display.litPlaces).card
      = display.lit + covered.card := by
  intro covered
  have hafter : { display with cells := cells }.litPlaces
      = display.litPlaces \ covered ∪ covered \ display.litPlaces := by
    ext ⟨x, y⟩
    rw [mem_litPlaces, Finset.mem_union, Finset.mem_sdiff, Finset.mem_sdiff, mem_litPlaces,
      Finset.mem_filter, mem_places]
    by_cases hxy : display.Has x y
    · have hcell := hturned.cell_eq x y hxy
      have hxy' : { display with cells := cells }.Has x y := hxy
      cases harea : area x y <;> simp [hcell, hxy, hxy', harea]
    · have hxy' : ¬{ display with cells := cells }.Has x y := hxy
      simp [hxy, hxy']
  have hapart : Disjoint (display.litPlaces \ covered) (covered \ display.litPlaces) :=
    Finset.disjoint_left.mpr fun place hlit hcovered =>
      (Finset.mem_sdiff.mp hlit).2 (Finset.mem_sdiff.mp hcovered).1
  rw [lit_eq_card (hturned.proper hproper), lit_eq_card hproper, hafter,
    Finset.card_union_of_disjoint hapart]
  have hkept := Finset.card_sdiff_add_card_inter display.litPlaces covered
  have hlighted := Finset.card_sdiff_add_card_inter covered display.litPlaces
  rw [Finset.inter_comm] at hkept
  omega

/-! ### Cells by the bits that land on them -/

theorem landing_injective (display : Display) (drawing : Drawing) :
    Function.Injective (display.landing drawing) := by
  rintro ⟨column, row⟩ ⟨column', row'⟩ hsame
  simp only [landing, Prod.mk.injEq] at hsame ⊢
  omega

/-- The cells that a sprite covers are those that its bits land on. -/
theorem coveredPlaces_eq_image (display : Display) (drawing : Drawing) :
    display.coveredPlaces drawing
      = (display.bitsOnScreen drawing).image (display.landing drawing) := by
  ext ⟨x, y⟩
  simp only [coveredPlaces, Finset.mem_filter, mem_places, Finset.mem_image, bitsOnScreen,
    Finset.mem_product, Finset.mem_range, coveredBy, spriteCovers, rowCovers, Bool.and_eq_true,
    decide_eq_true_eq]
  constructor
  · rintro ⟨hxy, hrow, hcolumn, hbit⟩
    have hlanding : display.landing drawing
        ((x - drawing.x % display.width).toNat, (y - drawing.y % display.height).toNat)
          = (x, y) := by
      simp only [landing, Prod.mk.injEq]
      omega
    refine ⟨_, ⟨⟨by omega, by omega⟩, hbit, ?_⟩, hlanding⟩
    rw [hlanding]
    exact hxy
  · rintro ⟨⟨column, row⟩, ⟨⟨hcolumn, hrow⟩, hbit, hplace⟩, hlanding⟩
    rw [hlanding] at hplace
    simp only [landing, Prod.mk.injEq] at hlanding
    have hcolumn' : x - drawing.x % display.width = column := by omega
    have hrow' : y - drawing.y % display.height = row := by omega
    rw [hcolumn', hrow', Int.toNat_natCast, Int.toNat_natCast]
    exact ⟨hplace, by omega, by omega, hbit⟩

theorem covered_of_mem_bitsOnScreen {bit : Nat × Nat} (hbit : bit ∈ display.bitsOnScreen drawing) :
    let place := display.landing drawing bit
    display.Has place.1 place.2 ∧ display.coveredBy place.1 place.2 drawing = true := by
  intro place
  have hmem : place ∈ display.coveredPlaces drawing := by
    rw [coveredPlaces_eq_image]
    exact Finset.mem_image_of_mem _ hbit
  obtain ⟨hplace, hcovered⟩ := Finset.mem_filter.mp hmem
  exact ⟨mem_places.mp hplace, hcovered⟩

theorem Turned.cell_landing {cells : Array UInt8} {hit : Bool}
    (hturned : display.Turned (fun x y => display.coveredBy x y drawing) cells hit)
    {bit : Nat × Nat} (hbit : bit ∈ display.bitsOnScreen drawing) :
    let place := display.landing drawing bit
    { display with cells := cells }.cell place.1 place.2 = !display.cell place.1 place.2 := by
  intro place
  obtain ⟨hplace, hcovered⟩ := covered_of_mem_bitsOnScreen hbit
  rw [hturned.cell_eq _ _ hplace, hcovered, Bool.xor_true]

theorem card_coveredPlaces (display : Display) (drawing : Drawing) :
    (display.coveredPlaces drawing).card = (display.bitsOnScreen drawing).card := by
  rw [coveredPlaces_eq_image,
    Finset.card_image_of_injective _ (landing_injective display drawing)]

theorem card_coveredPlaces_inter (display : Display) (drawing : Drawing) :
    (display.coveredPlaces drawing ∩ display.litPlaces).card
      = (display.bitsOnLit drawing).card := by
  have hlit : (display.bitsOnScreen drawing).image (display.landing drawing) ∩ display.litPlaces
      = (display.bitsOnLit drawing).image (display.landing drawing) := by
    rw [← Finset.filter_mem_eq_inter, Finset.filter_image, bitsOnLit]
    refine congrArg (Finset.image _) (Finset.filter_congr fun bit hbit => ?_)
    rw [mem_litPlaces, and_iff_right (covered_of_mem_bitsOnScreen hbit).1]
  rw [coveredPlaces_eq_image, hlit,
    Finset.card_image_of_injective _ (landing_injective display drawing)]

/-! ### Drawing -/

/-- A collision is reported if a bit of the sprite lands on a lit cell. -/
theorem result_draw (hproper : display.Proper) (drawing : Drawing) (traced : Bool) :
    (draw drawing.x drawing.y drawing.sprite traced display).result
      = .ok (decide (0 < (display.bitsOnLit drawing).card)) := by
  obtain ⟨cells, hit, hturned, hdraw⟩ :=
    draw_turned drawing.x drawing.y drawing.sprite traced hproper
  rw [hdraw]
  refine congrArg Except.ok ?_
  rw [Bool.eq_iff_iff, hturned.hit_iff, decide_eq_true_eq, ← card_coveredPlaces_inter,
    Finset.card_pos]
  constructor
  · rintro ⟨x, y, hxy, hcovered, hlit⟩
    refine ⟨(x, y), Finset.mem_inter.mpr ⟨?_, mem_litPlaces.mpr ⟨hxy, hlit⟩⟩⟩
    exact Finset.mem_filter.mpr ⟨mem_places.mpr hxy, hcovered⟩
  · rintro ⟨⟨x, y⟩, hplace⟩
    obtain ⟨hcovered, hlit⟩ := Finset.mem_inter.mp hplace
    obtain ⟨hxy, hlit⟩ := mem_litPlaces.mp hlit
    exact ⟨x, y, hxy, (Finset.mem_filter.mp hcovered).2, hlit⟩

/-- Of the bits on the screen, those that met a lit cell do not meet one again, and the others do.
-/
theorem card_bitsOnLit_again (hproper : display.Proper) (drawing : Drawing) (traced : Bool) :
    ((draw drawing.x drawing.y drawing.sprite traced display).state.bitsOnLit drawing).card
        + (display.bitsOnLit drawing).card
      = (display.bitsOnScreen drawing).card := by
  obtain ⟨cells, hit, hturned, hdraw⟩ :=
    draw_turned drawing.x drawing.y drawing.sprite traced hproper
  have hmissed : ({ display with cells := cells, dirty := true } : Display).bitsOnLit drawing
      = (display.bitsOnScreen drawing).filter fun bit =>
        ¬display.cell (display.landing drawing bit).1 (display.landing drawing bit).2 = true := by
    refine Finset.filter_congr fun bit hbit => ?_
    have hcell : ({ display with cells := cells } : Display).cell
        (display.landing drawing bit).1 (display.landing drawing bit).2
          = !display.cell (display.landing drawing bit).1 (display.landing drawing bit).2 :=
      Turned.cell_landing hturned hbit
    exact (Bool.eq_iff_iff.mp hcell).trans (by simp)
  rw [hdraw, hmissed, Nat.add_comm, bitsOnLit, Finset.card_filter_add_card_filter_not]

theorem lit_draw_add (hproper : display.Proper) (drawing : Drawing) (traced : Bool) :
    (draw drawing.x drawing.y drawing.sprite traced display).state.lit
        + 2 * (display.bitsOnLit drawing).card
      = display.lit + (display.bitsOnScreen drawing).card := by
  obtain ⟨cells, hit, hturned, hdraw⟩ :=
    draw_turned drawing.x drawing.y drawing.sprite traced hproper
  have hlit := hturned.lit_add hproper
  rw [hdraw, ← card_coveredPlaces_inter, ← card_coveredPlaces]
  exact hlit

theorem report_draw (hproper : display.Proper) (drawing : Drawing) (traced : Bool) :
    let outcome := draw drawing.x drawing.y drawing.sprite traced display
    outcome.state.report
      = s!"Display({display.width}x{display.height}, lit={outcome.state.lit}, dirty=True)" := by
  intro outcome
  obtain ⟨cells, hit, -, hdraw⟩ :=
    draw_turned drawing.x drawing.y drawing.sprite traced hproper
  have houtcome : outcome = ⟨{ display with cells := cells, dirty := true }, [], .ok hit⟩ := hdraw
  rw [houtcome]
  delta report
  simp [Report.truth, toString, String.append_assoc]

/-- Drawing a sprite anywhere adds to the lit cells as many as it has bits on the screen, less two
for each that lands on a lit cell. It answers whether there are bits that do; drawn once more, the
sprite meets a lit cell if there are bits that do not. -/
theorem draw_counts_collisions (hproper : display.Proper) (drawing : Drawing) (traced : Bool) :
    let outcome := draw drawing.x drawing.y drawing.sprite traced display
    let again := draw drawing.x drawing.y drawing.sprite traced outcome.state
    let onScreen := (display.bitsOnScreen drawing).card
    let onLit := (display.bitsOnLit drawing).card
    let figure : Int := display.lit + onScreen - 2 * onLit
    outcome.state.lit = figure ∧
      outcome.state.report
        = s!"Display({display.width}x{display.height}, lit={figure}, dirty=True)" ∧
      outcome.result = .ok (decide (0 < onLit)) ∧
      again.result = .ok (decide (onLit < onScreen)) ∧
      (outcome.result = .ok false ↔ outcome.state.lit = display.lit + onScreen) := by
  intro outcome again onScreen onLit figure
  have hlit : outcome.state.lit + 2 * onLit = display.lit + onScreen :=
    lit_draw_add hproper drawing traced
  have hresult : outcome.result = .ok (decide (0 < onLit)) := result_draw hproper drawing traced
  have hafter : outcome.state.Proper := by
    obtain ⟨cells, hit, hturned, hdraw⟩ :=
      draw_turned drawing.x drawing.y drawing.sprite traced hproper
    have houtcome : outcome = ⟨{ display with cells := cells, dirty := true }, [], .ok hit⟩ :=
      hdraw
    rw [houtcome]
    exact { hturned.proper hproper with }
  have hfigure : outcome.state.lit = figure := by omega
  refine ⟨hfigure, ?_, hresult, ?_, ?_⟩
  · rw [← hfigure]
    exact report_draw hproper drawing traced
  · have hagain : (outcome.state.bitsOnLit drawing).card + onLit = onScreen :=
      card_bitsOnLit_again hproper drawing traced
    have hleft : 0 < (outcome.state.bitsOnLit drawing).card ↔ onLit < onScreen := by omega
    simp only [again, result_draw hafter drawing traced, hleft]
  · rw [hresult, Except.ok.injEq, decide_eq_false_iff_not]
    omega

/-- A sprite whose corner wraps to the last two cells of a display of three by two. One of the two
is lit, so three cells are lit before and after, and there is a collision both times. -/
theorem draw_counts_collisions_clipped :
    let display : Display := ⟨3, 2, #[1, 0, 1, 0, 0, 1], false⟩
    let drawing : Drawing := ⟨-2, 7, [0x1E0, -1]⟩
    let outcome := draw drawing.x drawing.y drawing.sprite false display
    let again := draw drawing.x drawing.y drawing.sprite false outcome.state
    display.Proper ∧ (display.bitsOnScreen drawing).card = 2 ∧
      (display.bitsOnLit drawing).card = 1 ∧ display.lit = 3 ∧
      outcome.state.lit = 3 ∧ outcome.state.report = "Display(3x2, lit=3, dirty=True)" ∧
      outcome.result = .ok true ∧ again.result = .ok true := by
  intro display drawing outcome again
  have hproper : display.Proper := by decide
  have hscreen : (display.bitsOnScreen drawing).card = 2 := by decide +kernel
  have hlit : (display.bitsOnLit drawing).card = 1 := by decide +kernel
  have hthree : display.lit = 3 := by decide +kernel
  obtain ⟨hfigure, hreport, hresult, hagain, -⟩ := draw_counts_collisions hproper drawing false
  rw [hscreen, hlit, hthree] at hfigure hreport
  rw [hlit] at hresult
  rw [hscreen, hlit] at hagain
  have hafter : (outcome.state.lit : Int) = 3 := hfigure
  exact ⟨hproper, hscreen, hlit, hthree, by omega, hreport, hresult, hagain⟩

end ChipEight.Display
