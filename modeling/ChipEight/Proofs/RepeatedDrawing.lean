import ChipEight.Proofs.SpriteImage
import Mathlib.Data.Nat.Bits

/-!
Sprites drawn one after another. A cell ends up turned over if an odd number of them covers it, so
their order does not matter and drawing them all once more takes them away again. A sprite may be
drawn in two parts, one below the other, unless the lower one would start below the edge: its corner
would wrap around to the top, where the whole sprite is just cut off.
-/

namespace ChipEight

theorem spriteCovers_nil (column row : Int) : spriteCovers [] column row = false := by
  simp only [spriteCovers, List.length_nil, Bool.and_eq_false_iff, decide_eq_false_iff_not]
  omega

theorem spriteCovers_append (above below : List Int) (column row : Int) :
    spriteCovers (above ++ below) column row
      = (spriteCovers above column row || spriteCovers below column (row - above.length)) := by
  induction above generalizing row with
  | nil => simp [spriteCovers_nil]
  | cons bits rest ih =>
      have hrow : row - 1 - rest.length = row - (bits :: rest).length := by
        rw [List.length_cons]
        omega
      rw [List.cons_append, spriteCovers_cons, spriteCovers_cons, ih, hrow, Bool.or_assoc]

theorem spriteCovers_of_neg (sprite : List Int) (column : Int) {row : Int} (hrow : row < 0) :
    spriteCovers sprite column row = false := by
  rw [spriteCovers, decide_eq_false (by omega), Bool.false_and]

theorem lt_length_of_spriteCovers {sprite : List Int} {column row : Int}
    (hcovers : spriteCovers sprite column row = true) : row < sprite.length := by
  simp only [spriteCovers, Bool.and_eq_true, decide_eq_true_eq] at hcovers
  exact hcovers.1.2

/-- A sprite with the place where its corner is put. -/
structure Drawing where
  x : Int
  y : Int
  sprite : List Int

namespace Display

/-- Draw sprites one after another, and tell of each whether a lit cell was met. -/
def drawEach : List Drawing → Step Display (List Bool)
  | [] => pure []
  | drawing :: rest => do
      let hit ← draw drawing.x drawing.y drawing.sprite
      let hits ← drawEach rest
      pure (hit :: hits)

/-- Whether a cell of a display is covered by a sprite drawn on it. -/
def coveredBy (display : Display) (x y : Int) (drawing : Drawing) : Bool :=
  spriteCovers drawing.sprite (x - drawing.x % display.width) (y - drawing.y % display.height)

variable {display : Display} {x y : Int}

/-! ### Displays by their cells -/

/-- Every cell of a display stands somewhere within its edges. -/
theorem has_of_lt_size (hproper : display.Proper) {place : Nat}
    (hplace : place < display.cells.size) :
    display.Has (place % display.width) (place / display.width) ∧
      place / display.width * display.width + place % display.width = (place : Int) := by
  have hwidth := hproper.width_pos
  have hbound : (place : Int) < display.width * display.height := by
    rw [← hproper.size_eq]
    omega
  refine ⟨⟨⟨Int.emod_nonneg _ hwidth.ne', Int.emod_lt_of_pos _ hwidth⟩, ?_, ?_⟩, ?_⟩
  · exact Int.ediv_nonneg (by omega) hwidth.le
  · exact Int.ediv_lt_of_lt_mul hwidth (by rwa [Int.mul_comm])
  · exact Int.ediv_mul_add_emod _ _

/-- Cells are nothing but what is lit of them at the places within the edges. -/
theorem cells_ext (hproper : display.Proper) {cells cells' : Array UInt8}
    (hsize : cells.size = display.cells.size) (hsize' : cells'.size = display.cells.size)
    (hbits : ∀ cell ∈ cells, IsBit cell) (hbits' : ∀ cell ∈ cells', IsBit cell)
    (hsame : ∀ x y, display.Has x y →
      { display with cells := cells }.cell x y = { display with cells := cells' }.cell x y) :
    cells = cells' := by
  refine Array.ext (hsize.trans hsize'.symm) fun place hplace hplace' => ?_
  obtain ⟨hhas, hnumber⟩ := has_of_lt_size hproper (hsize ▸ hplace)
  have hcell := hsame _ _ hhas
  rw [cell_of_position cells hnumber, cell_of_position cells' hnumber,
    Array.getElem?_eq_getElem hplace, Array.getElem?_eq_getElem hplace', Option.getD_some,
    Option.getD_some] at hcell
  -- A cell that is no bit would be as dark as zero.
  rw [(hbits _ (Array.getElem_mem hplace)).eq_toUInt8,
    (hbits' _ (Array.getElem_mem hplace')).eq_toUInt8, hcell]

namespace Turned

variable {area area' : Int → Int → Bool} {cells cells' : Array UInt8} {hit hit' : Bool}

theorem unique (hproper : display.Proper) (hturned : display.Turned area cells hit)
    (hturned' : display.Turned area cells' hit') : cells = cells' ∧ hit = hit' := by
  refine ⟨cells_ext hproper hturned.size_eq hturned'.size_eq hturned.bits hturned'.bits
    fun x y hxy => ?_, ?_⟩
  · rw [hturned.cell_eq x y hxy, hturned'.cell_eq x y hxy]
  · rw [Bool.eq_iff_iff, hturned.hit_iff, hturned'.hit_iff]

end Turned

/-! ### Any number of sprites -/

/-- Whether an odd number of sprites covers a cell. -/
def oddlyCovered (display : Display) (drawings : List Drawing) (x y : Int) : Bool :=
  (drawings.countP (display.coveredBy x y)).bodd

theorem oddlyCovered_cons (drawing : Drawing) (rest : List Drawing) :
    display.oddlyCovered (drawing :: rest) x y
      = (display.coveredBy x y drawing ^^ display.oddlyCovered rest x y) := by
  rw [oddlyCovered, oddlyCovered, List.countP_cons]
  cases display.coveredBy x y drawing with
  | false => simp
  | true => simp

theorem oddlyCovered_append (drawings again : List Drawing) :
    display.oddlyCovered (drawings ++ again) x y
      = (display.oddlyCovered drawings x y ^^ display.oddlyCovered again x y) := by
  rw [oddlyCovered, List.countP_append, Nat.bodd_add]
  rfl

theorem oddlyCovered_perm {drawings drawings' : List Drawing} (hperm : drawings.Perm drawings') :
    display.oddlyCovered drawings x y = display.oddlyCovered drawings' x y := by
  rw [oddlyCovered, oddlyCovered, hperm.countP_eq]

/-- What is left of a display after sprites were drawn on it: a cell has been turned over once for
every sprite that covers it. -/
theorem drawEach_apply (drawings : List Drawing) (traced : Bool) (hproper : display.Proper) :
    ∃ cells hits, cells.size = display.cells.size ∧ (∀ cell ∈ cells, IsBit cell) ∧
      hits.length = drawings.length ∧ (∀ x y, display.Has x y →
        { display with cells := cells }.cell x y
          = (display.cell x y ^^ display.oddlyCovered drawings x y)) ∧
      drawEach drawings traced display
        = ⟨{ display with
              cells := cells, dirty := display.dirty || !drawings.isEmpty }, [], .ok hits⟩ := by
  induction drawings generalizing display with
  | nil =>
      refine ⟨display.cells, [], rfl, hproper.bits, rfl, fun x y _ => ?_, by simp [drawEach]⟩
      rw [oddlyCovered, List.countP_nil, Nat.bodd_zero, Bool.xor_false]
  | cons drawing rest ih =>
      obtain ⟨cells, hit, hturned, hdraw⟩ :=
        draw_turned drawing.x drawing.y drawing.sprite traced hproper
      have hproper' : { display with cells := cells, dirty := true }.Proper :=
        { hturned.proper hproper with }
      obtain ⟨cells', hits, hsize, hbits, hlength, hcell, hrest⟩ := ih hproper'
      refine ⟨cells', hit :: hits, hsize.trans hturned.size_eq, hbits, by simp [hlength], ?_, ?_⟩
      · intro x y hxy
        -- The first sprite does not change the size, so the others cover what they covered before.
        calc
          { display with cells := cells' }.cell x y
              = ({ display with cells := cells }.cell x y ^^ display.oddlyCovered rest x y) :=
            hcell x y hxy
          _ = (display.cell x y ^^ display.coveredBy x y drawing
                ^^ display.oddlyCovered rest x y) := by
            rw [hturned.cell_eq x y hxy]
            rfl
          _ = (display.cell x y ^^ display.oddlyCovered (drawing :: rest) x y) := by
            rw [oddlyCovered_cons, Bool.xor_assoc]
      · simp [drawEach, hdraw, hrest]

/-- What sprites leave on a display is told by the cells that an odd number of them covers. -/
theorem state_drawEach_congr {drawings drawings' : List Drawing} (traced : Bool)
    (hproper : display.Proper)
    (hsame : ∀ x y, display.oddlyCovered drawings x y = display.oddlyCovered drawings' x y)
    (hempty : drawings.isEmpty = drawings'.isEmpty) :
    (drawEach drawings traced display).state = (drawEach drawings' traced display).state := by
  obtain ⟨cells, hits, hsize, hbits, -, hcell, hdraw⟩ := drawEach_apply drawings traced hproper
  obtain ⟨cells', hits', hsize', hbits', -, hcell', hdraw'⟩ :=
    drawEach_apply drawings' traced hproper
  have hcells : cells = cells' := by
    refine cells_ext hproper hsize hsize' hbits hbits' fun x y hxy => ?_
    rw [hcell x y hxy, hcell' x y hxy, hsame x y]
  rw [hdraw, hdraw', hcells, hempty]

theorem state_drawEach_again {drawings again : List Drawing} (traced : Bool)
    (hproper : display.Proper) (hagain : again.Perm drawings) :
    (drawEach (drawings ++ again) traced display).state
      = { display with dirty := display.dirty || !drawings.isEmpty } := by
  obtain ⟨cells, hits, hsize, hbits, -, hcell, hdraw⟩ :=
    drawEach_apply (drawings ++ again) traced hproper
  have hcells : cells = display.cells := by
    refine cells_ext hproper hsize rfl hbits hproper.bits fun x y hxy => ?_
    rw [hcell x y hxy, oddlyCovered_append, oddlyCovered_perm hagain, Bool.xor_self,
      Bool.xor_false]
  have hempty : (drawings ++ again).isEmpty = drawings.isEmpty := by
    cases drawings with
    | nil => rw [hagain.eq_nil, List.nil_append]
    | cons drawing rest => rfl
  rw [hdraw, hcells, hempty]

/-! ### A sprite in two parts -/

/-- Two sprites that turn over the same cells within the edges are drawn alike. -/
theorem draw_congr (traced : Bool) (hproper : display.Proper) {sprite sprite' : List Int}
    (hsame : ∀ cx cy, display.Has cx cy →
      display.coveredBy cx cy ⟨x, y, sprite⟩ = display.coveredBy cx cy ⟨x, y, sprite'⟩) :
    draw x y sprite traced display = draw x y sprite' traced display := by
  obtain ⟨cells, hit, hturned, hdraw⟩ := draw_turned x y sprite traced hproper
  obtain ⟨cells', hit', hturned', hdraw'⟩ := draw_turned x y sprite' traced hproper
  obtain ⟨rfl, rfl⟩ := (hturned.congr hsame).unique hproper hturned'
  rw [hdraw, hdraw']

variable {above below : List Int}

theorem draw_append_of_clipped (traced : Bool) (hproper : display.Proper)
    (hedge : display.height ≤ y % display.height + above.length) :
    draw x y (above ++ below) traced display = draw x y above traced display := by
  refine draw_congr traced hproper fun cx cy hcell => ?_
  have hbelow : cy - y % display.height - above.length < 0 := by
    have hcy := hcell.2.2
    omega
  rw [coveredBy, coveredBy, spriteCovers_append, spriteCovers_of_neg below _ hbelow,
    Bool.or_false]

/-- Above the lower edge, the second part of a sprite starts where the first part ends. -/
theorem draw_append (traced : Bool) (hproper : display.Proper)
    (hedge : y % display.height + above.length < display.height) :
    draw x y (above ++ below) traced display =
      (do
        let hit ← draw x y above
        let hit' ← draw x (y + above.length) below
        pure (hit || hit')) traced display := by
  obtain ⟨cells, hit, hturned, hdraw⟩ := draw_turned x y (above ++ below) traced hproper
  obtain ⟨cells', hit', hturned', hdraw'⟩ := draw_turned x y above traced hproper
  have hproper' : { display with cells := cells', dirty := true }.Proper :=
    { hturned'.proper hproper with }
  obtain ⟨cells'', hit'', hturned'', hdraw''⟩ :=
    draw_turned x (y + above.length) below traced hproper'
  have hcorner : (y + above.length) % display.height = y % display.height + above.length := by
    have hnonneg := Int.emod_nonneg y hproper.height_pos.ne'
    rw [← Int.emod_add_emod, Int.emod_eq_of_lt (by omega) hedge]
  have hparts : display.Turned
      (fun cx cy => spriteCovers (above ++ below) (cx - x % display.width)
        (cy - y % display.height)) cells'' (hit' || hit'') := by
    -- The flag, which the upper part has put up, is no part of what `Turned` says.
    refine (hturned'.comp
      ⟨hturned''.size_eq, hturned''.bits, hturned''.cell_eq, hturned''.hit_iff⟩ ?_).congr ?_
    · intro cx cy hcovers
      have hrow := lt_length_of_spriteCovers hcovers
      refine spriteCovers_of_neg below _ ?_
      change cy - (y + above.length) % display.height < 0
      omega
    · intro cx cy _
      have hrow : cy - (y + above.length) % display.height
          = cy - y % display.height - above.length := by
        omega
      rw [spriteCovers_append, ← hrow]
  obtain ⟨rfl, rfl⟩ := hturned.unique hproper hparts
  simp [hdraw, hdraw', hdraw'']

/-! ### The laws of drawing -/

/-- Drawing always succeeds. What sprites leave on the display does not depend on their order, and
drawing them once more leaves it as it was, except that the flag is up. A sprite of two parts is
drawn like these, one below the other, and like the upper one alone if that one reaches the edge. -/
structure DrawsByTurning (display : Display) (traced : Bool) : Prop where
  succeeds : ∀ x y sprite, ∃ hit, (draw x y sprite traced display).result = .ok hit
  eachSucceeds : ∀ drawings, ∃ hits, (drawEach drawings traced display).result = .ok hits ∧
    hits.length = drawings.length
  anyOrder : ∀ drawings drawings' : List Drawing, drawings.Perm drawings' →
    (drawEach drawings traced display).state = (drawEach drawings' traced display).state
  undone : ∀ drawings again : List Drawing, again.Perm drawings →
    (drawEach (drawings ++ again) traced display).state
      = { display with dirty := display.dirty || !drawings.isEmpty }
  inParts : ∀ x y above below, y % display.height + above.length < display.height →
    draw x y (above ++ below) traced display =
      (do
        let hit ← draw x y above
        let hit' ← draw x (y + above.length) below
        pure (hit || hit')) traced display
  cutOff : ∀ x y above below, display.height ≤ y % display.height + above.length →
    draw x y (above ++ below) traced display = draw x y above traced display

/-- Every display with cells, whatever is lit on it, keeps the laws of drawing. -/
theorem drawsByTurning (hproper : display.Proper) (traced : Bool) :
    display.DrawsByTurning traced where
  succeeds := by
    intro x y sprite
    obtain ⟨cells, hit, -, hdraw⟩ := draw_turned x y sprite traced hproper
    exact ⟨hit, by rw [hdraw]⟩
  eachSucceeds := by
    intro drawings
    obtain ⟨cells, hits, -, -, hlength, -, hdraw⟩ := drawEach_apply drawings traced hproper
    exact ⟨hits, by rw [hdraw], hlength⟩
  anyOrder := fun _ _ hperm =>
    state_drawEach_congr traced hproper (fun _ _ => oddlyCovered_perm hperm) hperm.isEmpty_eq
  undone := fun _ _ hagain => state_drawEach_again traced hproper hagain
  inParts := fun _ _ _ _ hedge => draw_append traced hproper hedge
  cutOff := fun _ _ _ _ hedge => draw_append_of_clipped traced hproper hedge

/-- Two sprites on a display of three by two cells, both over its last cell, are gone when they
have been drawn twice. The second one is two rows high and has room for both from the upper row
only. -/
theorem drawsByTurning_narrow :
    let display : Display := ⟨3, 2, #[1, 0, 1, 0, 1, 1], false⟩
    let drawings : List Drawing := [⟨-1, 7, [0x180, -1, 0xFF]⟩, ⟨4, 2, [0xC0, 0x40]⟩]
    let outcome := drawEach (drawings ++ drawings.reverse) false display
    display.Proper ∧ outcome.state = { display with dirty := true } ∧
      (drawEach drawings false display).state.cells = #[1, 1, 0, 0, 1, 1] ∧
      draw 4 2 [0xC0, 0x40] false display =
        (do
          let hit ← draw 4 2 [0xC0]
          let hit' ← draw 4 3 [0x40]
          pure (hit || hit')) false display ∧
      draw 4 3 [0xC0, 0x40] false display = draw 4 3 [0xC0] false display := by
  intro display drawings outcome
  have hproper : display.Proper := by decide
  have hlaws := drawsByTurning hproper false
  exact ⟨hproper, hlaws.undone drawings drawings.reverse drawings.reverse_perm, by decide +kernel,
    hlaws.inParts 4 2 [0xC0] [0x40] (by decide), hlaws.cutOff 4 3 [0xC0] [0x40] (by decide)⟩

end Display

end ChipEight
