import ChipEight.Proofs.DisplayLemmas
import Mathlib.Data.Int.Bitwise

/-!
What drawing a sprite does to the cells of a display. Exactly the cells that the sprite covers
within the edges are turned over, each of them once, and the answer tells whether one of them was
lit.
-/

namespace ChipEight

theorem Bits.mask_two_pow_ne_zero_iff (value : Int) (k : Nat) :
    mask value (2 ^ k) ≠ 0 ↔ value.testBit k = true := by
  have hpos := Nat.two_pow_pos k
  cases value with
  | ofNat n =>
      simp only [mask, Nat.and_two_pow, Int.testBit]
      cases n.testBit k with
      | false => simp
      | true => simp
  | negSucc n =>
      simp only [mask, Nat.and_two_pow, Int.testBit]
      cases n.testBit k with
      | false => simp
      | true => simp

/-- Whether a sprite row covers a column counted from its left end, which is its bit 7. -/
def rowCovers (bits column : Int) : Bool :=
  decide (0 ≤ column ∧ column < 8) && bits.testBit (7 - column.toNat)

/-- Whether a sprite covers the cell at a column and a row counted from its corner. -/
def spriteCovers (sprite : List Int) (column row : Int) : Bool :=
  decide (0 ≤ row ∧ row < sprite.length) && rowCovers (sprite.getD row.toNat 0) column

theorem spriteCovers_cons (bits : Int) (rest : List Int) (column row : Int) :
    spriteCovers (bits :: rest) column row
      = (decide (row = 0) && rowCovers bits column || spriteCovers rest column (row - 1)) := by
  by_cases hfirst : row = 0
  · subst hfirst
    simp [spriteCovers]
  · have hcount : 0 ≤ row ∧ row < (bits :: rest).length ↔ 0 ≤ row - 1 ∧ row - 1 < rest.length := by
      rw [List.length_cons]
      omega
    simp only [spriteCovers, hcount, hfirst, decide_false, Bool.false_and, Bool.false_or]
    by_cases hrow : 0 ≤ row - 1
    · obtain ⟨below, hbelow⟩ : ∃ below, row.toNat = below + 1 := ⟨row.toNat - 1, by omega⟩
      have hbelow' : (row - 1).toNat = below := by omega
      rw [hbelow, hbelow', List.getD_cons_succ]
    · have habove : ¬(0 ≤ row - 1 ∧ row - 1 < rest.length) := fun hbelow => hrow hbelow.1
      rw [decide_eq_false habove, Bool.false_and, Bool.false_and]

namespace Display

theorem covers_eq_testBit (bits : Int) {column : Nat} (hcolumn : column < 8) :
    covers bits column = bits.testBit (7 - column) := by
  have hmasks : ∀ column < 8, 0x80 >>> column = 2 ^ (7 - column) := by decide
  rw [covers, hmasks column hcolumn, Bool.eq_iff_iff, bne_iff_ne]
  exact Bits.mask_two_pow_ne_zero_iff bits (7 - column)

theorem any_covers_eq_rowCovers (bits column : Int) :
    ((List.range spriteWidth).any fun c : Nat => decide (column = c) && covers bits c)
      = rowCovers bits column := by
  rw [Bool.eq_iff_iff]
  simp only [List.any_eq_true, List.mem_range, Bool.and_eq_true, decide_eq_true_eq, rowCovers,
    spriteWidth]
  constructor
  · rintro ⟨c, hc, rfl, hcovers⟩
    rw [covers_eq_testBit bits hc] at hcovers
    exact ⟨by omega, hcovers⟩
  · rintro ⟨hcolumn, hbit⟩
    refine ⟨column.toNat, by omega, by omega, ?_⟩
    rw [covers_eq_testBit bits (by omega)]
    exact hbit

def Has (display : Display) (x y : Int) : Prop :=
  (0 ≤ x ∧ x < display.width) ∧ 0 ≤ y ∧ y < display.height

def cell (display : Display) (x y : Int) : Bool :=
  (display.cells[(display.position x y).toNat]?).getD 0 == 1

/-- New cells of a display, in which exactly those of an area are turned over; `hit` tells whether
one of them was lit. -/
structure Turned (display : Display) (area : Int → Int → Bool) (cells : Array UInt8)
    (hit : Bool) : Prop where
  size_eq : cells.size = display.cells.size
  bits : ∀ cell ∈ cells, IsBit cell
  cell_eq : ∀ x y, display.Has x y →
    { display with cells := cells }.cell x y = (display.cell x y ^^ area x y)
  hit_iff : hit = true ↔ ∃ x y, display.Has x y ∧ area x y = true ∧ display.cell x y = true

variable {display : Display} {x y : Int}

theorem cell_of_position {place : Nat} (cells : Array UInt8)
    (hposition : display.position x y = place) :
    { display with cells := cells }.cell x y = ((cells[place]?).getD 0 == 1) := by
  have hplace : ({ display with cells := cells } : Display).position x y = place := hposition
  rw [cell, hplace, Int.toNat_natCast]

/-- The byte of a cell, which is found at the place of its column and row. -/
theorem exists_place (hproper : display.Proper) (hxy : display.Has x y) :
    ∃ place : Nat, ∃ hplace : place < display.cells.size, display.position x y = place ∧
      display.cells[place] = (display.cell x y).toUInt8 := by
  have hlower := position_nonneg hproper hxy.1.1 hxy.2.1
  have hupper := position_lt_size hproper hxy.1.2 hxy.2.2
  have hplace : (display.position x y).toNat < display.cells.size := by omega
  refine ⟨(display.position x y).toNat, hplace, (Int.toNat_of_nonneg hlower).symm, ?_⟩
  rw [cell, Array.getElem?_eq_getElem hplace, Option.getD_some]
  exact (hproper.bits _ (Array.getElem_mem hplace)).eq_toUInt8

theorem pixel_eq_cell (hproper : display.Proper) (hxy : display.Has x y) :
    display.pixel x y = .ok (display.cell x y).toUInt8 := by
  obtain ⟨place, hplace, hposition, hbyte⟩ := exists_place hproper hxy
  rw [pixel, hposition, Store.item_of_lt hplace, hbyte]

theorem pixel_eq_one_iff (hproper : display.Proper) (hxy : display.Has x y) :
    display.pixel x y = .ok 1 ↔ display.cell x y = true := by
  rw [pixel_eq_cell hproper hxy, Except.ok.injEq]
  cases display.cell x y <;> decide

theorem position_inj {x' y' : Int} (hxy : display.Has x y) (hxy' : display.Has x' y')
    (hplace : display.position x y = display.position x' y') : x = x' ∧ y = y' := by
  simp only [position] at hplace
  have hrow : ∀ {x y : Int}, display.Has x y → (y * display.width + x) / display.width = y := by
    intro x y hxy
    have hpos : display.width ≠ 0 := by
      have hx := hxy.1
      omega
    rw [Int.add_comm, Int.add_mul_ediv_right x y hpos, Int.ediv_eq_zero_of_lt hxy.1.1 hxy.1.2,
      Int.zero_add]
  have hy : y = y' :=
    calc
      y = (y * display.width + x) / display.width := (hrow hxy).symm
      _ = (y' * display.width + x') / display.width := by rw [hplace]
      _ = y' := hrow hxy'
  subst hy
  exact ⟨by omega, rfl⟩

namespace Turned

variable {area area' : Int → Int → Bool} {cells cells' : Array UInt8} {hit hit' : Bool}

theorem proper (hproper : display.Proper) (hturned : display.Turned area cells hit) :
    { display with cells := cells }.Proper :=
  hproper.ofCells hturned.size_eq hturned.bits

theorem nothing (hproper : display.Proper) (harea : ∀ x y, display.Has x y → area x y = false) :
    display.Turned area display.cells false where
  size_eq := rfl
  bits := hproper.bits
  cell_eq := by
    intro x y hxy
    rw [harea x y hxy, Bool.xor_false]
  hit_iff := by
    constructor
    · intro hhit
      cases hhit
    · rintro ⟨x, y, hxy, hcovered, -⟩
      rw [harea x y hxy] at hcovered
      exact hcovered

theorem congr (hturned : display.Turned area cells hit)
    (harea : ∀ x y, display.Has x y → area x y = area' x y) :
    display.Turned area' cells hit where
  size_eq := hturned.size_eq
  bits := hturned.bits
  cell_eq := by
    intro x y hxy
    rw [hturned.cell_eq x y hxy, harea x y hxy]
  hit_iff := by
    rw [hturned.hit_iff]
    refine exists_congr fun x => exists_congr fun y => and_congr_right fun hxy => ?_
    rw [harea x y hxy]

/-- Areas that lie apart are turned over one after the other. The second hits what was lit before
the first, which has not touched it. -/
theorem comp (hfirst : display.Turned area cells hit)
    (hsecond : { display with cells := cells }.Turned area' cells' hit')
    (hapart : ∀ x y, area x y = true → area' x y = false) :
    display.Turned (fun x y => area x y || area' x y) cells' (hit || hit') where
  size_eq := hsecond.size_eq.trans hfirst.size_eq
  bits := hsecond.bits
  cell_eq := by
    intro x y hxy
    have hlater : { display with cells := cells' }.cell x y
        = ({ display with cells := cells }.cell x y ^^ area' x y) := hsecond.cell_eq x y hxy
    rw [hlater, hfirst.cell_eq x y hxy]
    by_cases harea : area x y = true
    · simp [harea, hapart x y harea]
    · rw [Bool.not_eq_true] at harea
      simp [harea]
  hit_iff := by
    rw [Bool.or_eq_true, hfirst.hit_iff, hsecond.hit_iff]
    constructor
    · rintro (⟨x, y, hxy, harea, hlit⟩ | ⟨x, y, hxy, harea', hlit⟩)
      · exact ⟨x, y, hxy, by rw [harea, Bool.true_or], hlit⟩
      · have harea : area x y = false := by
          by_contra hboth
          rw [hapart x y (by simpa using hboth)] at harea'
          cases harea'
        rw [hfirst.cell_eq x y hxy, harea, Bool.xor_false] at hlit
        exact ⟨x, y, hxy, by rw [harea', Bool.or_true], hlit⟩
    · rintro ⟨x, y, hxy, heither, hlit⟩
      by_cases harea : area x y = true
      · exact .inl ⟨x, y, hxy, harea, hlit⟩
      · rw [Bool.not_eq_true] at harea
        refine .inr ⟨x, y, hxy, by simpa [harea] using heither, ?_⟩
        rw [hfirst.cell_eq x y hxy, harea, Bool.xor_false]
        exact hlit

end Turned

/-! ### Cells, rows and whole sprites -/

theorem ofNat_xor_one (lit : Bool) :
    UInt8.ofNat ((lit.toUInt8.toNat ^^^ 1 : Nat) : Int).toNat = (!lit).toUInt8 := by
  cases lit <;> rfl

theorem flip_turned (traced : Bool) (hproper : display.Proper) (hxy : display.Has x y) :
    ∃ cells lit, display.Turned (fun cx cy => decide (cx = x ∧ cy = y)) cells lit ∧
      flip x y traced display = ⟨{ display with cells := cells }, [], .ok lit⟩ := by
  obtain ⟨place, hplace, hposition, hbyte⟩ := exists_place hproper hxy
  refine ⟨display.cells.setIfInBounds place (!display.cell x y).toUInt8, display.cell x y,
    ⟨Array.size_setIfInBounds, isBit_of_mem_set hproper.bits (isBit_toUInt8 _), ?_, ?_⟩, ?_⟩
  · intro cx cy hcell
    by_cases hsame : cx = x ∧ cy = y
    · obtain ⟨rfl, rfl⟩ := hsame
      rw [cell_of_position _ hposition, Array.getElem?_setIfInBounds_self_of_lt hplace,
        Option.getD_some, toUInt8_beq_one]
      simp
    · obtain ⟨place', -, hposition', -⟩ := exists_place hproper hcell
      have hplaces : place ≠ place' := by
        intro heq
        exact hsame (position_inj hcell hxy (by rw [hposition, hposition', heq]))
      have hbefore := cell_of_position display.cells hposition'
      rw [cell_of_position _ hposition', Array.getElem?_setIfInBounds_ne hplaces, ← hbefore,
        decide_eq_false hsame, Bool.xor_false]
  · constructor
    · intro hlit
      exact ⟨x, y, hxy, by simp, hlit⟩
    · rintro ⟨cx, cy, -, hsame, hlit⟩
      obtain ⟨rfl, rfl⟩ : cx = x ∧ cy = y := by simpa using hsame
      exact hlit
  · have hvalue : (0 : Int) ≤ (((display.cell x y).toUInt8.toNat ^^^ 1 : Nat) : Int) ∧
        (((display.cell x y).toUInt8.toNat ^^^ 1 : Nat) : Int) ≤ 255 := by
      cases display.cell x y <;> decide
    simp only [flip, Step.bind_apply, Step.get_apply, Step.ofExcept_apply, Step.modify_apply,
      Step.pure_apply, hposition, Store.item_of_lt hplace, hbyte,
      Store.assignByte_of_lt hplace hvalue, ofNat_xor_one, toUInt8_beq_one, List.append_nil]

/-- Columns are drawn from left to right, so the first one past the edge is the end of the row. -/
theorem drawColumns_turned (traced : Bool) (bits : Int) {columns : List Nat}
    (hcolumns : columns.Pairwise (· < ·)) (hproper : display.Proper) (hx : 0 ≤ x) (hy : 0 ≤ y)
    (hy' : y < display.height) :
    ∃ cells hit,
      display.Turned
        (fun cx cy => decide (cy = y) &&
          columns.any fun column : Nat => decide (cx - x = column) && covers bits column)
        cells hit ∧
      drawColumns x y bits columns traced display
        = ⟨{ display with cells := cells }, [], .ok hit⟩ := by
  induction columns generalizing display with
  | nil => exact ⟨display.cells, false, .nothing hproper (by simp), rfl⟩
  | cons column rest ih =>
      obtain ⟨hbehind, hrest⟩ := List.pairwise_cons.mp hcolumns
      by_cases hedge : display.width ≤ x + column
      · refine ⟨display.cells, false, .nothing hproper ?_, by simp [drawColumns, hedge]⟩
        intro cx cy hcell
        have hleft : ∀ c ∈ column :: rest, cx - x ≠ c := by
          intro c hc
          have hcx := hcell.1.2
          have hle : column ≤ c := by
            rcases List.mem_cons.mp hc with rfl | hc
            · exact Nat.le_refl c
            · exact Nat.le_of_lt (hbehind c hc)
          omega
        rw [Bool.and_eq_false_iff, List.any_eq_false]
        refine .inr fun c hc => ?_
        rw [decide_eq_false (hleft c hc), Bool.false_and]
        exact Bool.false_ne_true
      · by_cases hcovers : covers bits column
        · have hhas : display.Has (x + column) y := ⟨⟨by omega, by omega⟩, hy, hy'⟩
          obtain ⟨cells, lit, hturned, hflip⟩ := flip_turned traced hproper hhas
          obtain ⟨cells', hit, hturned', hdraw⟩ :=
            ih hrest (hturned.proper hproper) hy'
          refine ⟨cells', lit || hit, (hturned.comp hturned' ?_).congr ?_, ?_⟩
          · intro cx cy hsame
            obtain ⟨rfl, rfl⟩ : cx = x + column ∧ cy = y := by simpa using hsame
            have hright : ∀ c ∈ rest, x + column - x ≠ c := by
              intro c hc
              have hlt := hbehind c hc
              omega
            rw [Bool.and_eq_false_iff, List.any_eq_false]
            refine .inr fun c hc => ?_
            rw [decide_eq_false (hright c hc), Bool.false_and]
            exact Bool.false_ne_true
          · intro cx cy _
            have hcolumn : cx - x = column ↔ cx = x + column := by omega
            by_cases hrow : cy = y
            · simp [hrow, hcovers, hcolumn]
            · simp [hrow]
          · simp [drawColumns, hedge, hcovers, hflip, hdraw]
        · obtain ⟨cells, hit, hturned, hdraw⟩ := ih hrest hproper hy'
          refine ⟨cells, hit, hturned.congr ?_, by simp [drawColumns, hedge, hcovers, hdraw]⟩
          intro cx cy _
          simp [hcovers]

theorem drawRow_turned (traced : Bool) (bits : Int) (hproper : display.Proper) (hx : 0 ≤ x)
    (hy : 0 ≤ y) (hy' : y < display.height) :
    ∃ cells hit,
      display.Turned (fun cx cy => decide (cy - y = 0) && rowCovers bits (cx - x)) cells hit ∧
      drawColumns x y bits (List.range spriteWidth) traced display
        = ⟨{ display with cells := cells }, [], .ok hit⟩ := by
  obtain ⟨cells, hit, hturned, hdraw⟩ :=
    drawColumns_turned traced bits List.pairwise_lt_range hproper hx hy hy'
  refine ⟨cells, hit, hturned.congr fun cx cy _ => ?_, hdraw⟩
  rw [any_covers_eq_rowCovers]
  simp only [Int.sub_eq_zero]

theorem drawRows_turned (traced : Bool) (sprite : List Int) (hproper : display.Proper)
    (hx : 0 ≤ x) (hy : 0 ≤ y) :
    ∃ cells hit,
      display.Turned (fun cx cy => spriteCovers sprite (cx - x) (cy - y)) cells hit ∧
      drawRows x y sprite traced display = ⟨{ display with cells := cells }, [], .ok hit⟩ := by
  induction sprite generalizing display y with
  | nil =>
      refine ⟨display.cells, false, .nothing hproper ?_, rfl⟩
      intro cx cy _
      simp only [spriteCovers, List.length_nil, Bool.and_eq_false_iff, decide_eq_false_iff_not]
      omega
  | cons bits rest ih =>
      by_cases hedge : display.height ≤ y
      · refine ⟨display.cells, false, .nothing hproper ?_, by simp [drawRows, hedge]⟩
        intro cx cy hcell
        have hcy := hcell.2.2
        simp only [spriteCovers, Bool.and_eq_false_iff, decide_eq_false_iff_not]
        omega
      · obtain ⟨cells, hit, hturned, hrow⟩ :=
          drawRow_turned traced bits hproper hx hy (by omega)
        obtain ⟨cells', hit', hturned', hrest⟩ :=
          ih (hturned.proper hproper) (by omega : 0 ≤ y + 1)
        refine ⟨cells', hit || hit', (hturned.comp hturned' ?_).congr ?_, ?_⟩
        · intro cx cy hrow
          have hcy : cy - y = 0 := by
            rw [Bool.and_eq_true, decide_eq_true_eq] at hrow
            exact hrow.1
          simp only [spriteCovers, Bool.and_eq_false_iff, decide_eq_false_iff_not]
          omega
        · intro cx cy _
          rw [spriteCovers_cons, Int.sub_sub]
        · simp [drawRows, hedge, hrow, hrest]

/-- A display with cells can be drawn on anywhere: the cells that the sprite covers from its corner
on turn over, and the flag goes up. -/
theorem draw_turned (x y : Int) (sprite : List Int) (traced : Bool) (hproper : display.Proper) :
    ∃ cells hit,
      display.Turned
        (fun cx cy => spriteCovers sprite (cx - x % display.width) (cy - y % display.height))
        cells hit ∧
      draw x y sprite traced display
        = ⟨{ display with cells := cells, dirty := true }, [], .ok hit⟩ := by
  have hwidth := hproper.width_pos
  have hheight := hproper.height_pos
  obtain ⟨cells, hit, hturned, hrows⟩ :=
    drawRows_turned traced sprite hproper (Int.emod_nonneg x hwidth.ne')
      (Int.emod_nonneg y hheight.ne')
  refine ⟨cells, hit, hturned, ?_⟩
  simp [draw, hwidth.ne', hheight.ne', hrows]

/-- Wherever its corner is put, a sprite is combined by exclusive or with exactly the cells that it
covers within the edges, and drawing it answers whether one of them was lit. -/
theorem pixel_draw (hproper : display.Proper) (x y : Int) (sprite : List Int) (traced : Bool) :
    let outcome := draw x y sprite traced display
    let covered := fun cx cy =>
      spriteCovers sprite (cx - x % display.width) (cy - y % display.height)
    (∀ cx cy, display.Has cx cy → ∃ lit : Bool, display.pixel cx cy = .ok lit.toUInt8 ∧
      outcome.state.pixel cx cy = .ok (lit ^^ covered cx cy).toUInt8) ∧
    (∃ hit, outcome.result = .ok hit ∧
      (hit = true ↔
        ∃ cx cy, display.Has cx cy ∧ covered cx cy = true ∧ display.pixel cx cy = .ok 1)) ∧
    outcome.state.width = display.width ∧ outcome.state.height = display.height ∧
    outcome.state.cells.size = display.cells.size ∧ outcome.state.dirty = true := by
  intro outcome covered
  obtain ⟨cells, hit, hturned, hdraw⟩ := draw_turned x y sprite traced hproper
  have houtcome : outcome = ⟨{ display with cells := cells, dirty := true }, [], .ok hit⟩ := hdraw
  have hafter : { display with cells := cells, dirty := true }.Proper :=
    { hturned.proper hproper with }
  rw [houtcome]
  refine ⟨fun cx cy hcell => ⟨display.cell cx cy, pixel_eq_cell hproper hcell, ?_⟩,
    ⟨hit, rfl, ?_⟩, rfl, rfl, hturned.size_eq, rfl⟩
  · rw [pixel_eq_cell hafter hcell]
    exact congrArg (Except.ok ∘ Bool.toUInt8) (hturned.cell_eq cx cy hcell)
  · rw [hturned.hit_iff]
    refine exists_congr fun cx => exists_congr fun cy => and_congr_right fun hcell => ?_
    rw [pixel_eq_one_iff hproper hcell]

/-- Three rows, one of them a negative number, on a display of three by two cells: all but one cell
of the sprite are cut off. -/
theorem pixel_draw_narrow :
    let display : Display := ⟨3, 2, #[1, 0, 1, 0, 1, 1], false⟩
    let outcome := draw (-1) 7 [0x180, -1, 0xFF] false display
    display.Proper ∧
      (∀ cx cy, display.Has cx cy → ∃ lit : Bool, display.pixel cx cy = .ok lit.toUInt8 ∧
        outcome.state.pixel cx cy
          = .ok (lit ^^ spriteCovers [0x180, -1, 0xFF] (cx - -1 % 3) (cy - 7 % 2)).toUInt8) ∧
      outcome.state.cells = #[1, 0, 1, 0, 1, 0] := by
  intro display outcome
  have hproper : display.Proper := by decide
  obtain ⟨hpixels, -⟩ := pixel_draw hproper (-1) 7 [0x180, -1, 0xFF] false
  exact ⟨hproper, hpixels, by decide +kernel⟩

end Display

end ChipEight
