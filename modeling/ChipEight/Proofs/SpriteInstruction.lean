import ChipEight.Proofs.Safety

/-!
The drawing instruction from its operands to the cells. The corner comes from two registers, the
rows come from the memory at I, and VF, which may be one of the two registers, tells in the end
whether a lit cell was met.
-/

namespace ChipEight

theorem Memory.spriteCovers_block (memory : Memory) (address : Int) (height : Nat)
    (column row : Int) :
    spriteCovers ((memory.block address height).map fun byte => (byte.toNat : Int)) column row
      = (decide (0 ≤ column ∧ column < 8 ∧ 0 ≤ row ∧ row < height) &&
          (memory.get ((address + row) % 0x1000)).toNat.testBit (7 - column.toNat)) := by
  by_cases hrow : 0 ≤ row ∧ row < height
  · have hcell : memory.get (address + row.toNat) = memory.get ((address + row) % 0x1000) := by
      rw [Int.toNat_of_nonneg hrow.1]
      exact get_congr (Int.mod_modEq (address + row) 0x1000).symm
    have hbits :
        ((memory.block address height).map fun byte => (byte.toNat : Int)).getD row.toNat 0
          = ((memory.get ((address + row) % 0x1000)).toNat : Int) := by
      have hlt : row.toNat < height := by omega
      simp [-Int.ofNat_toNat, block_eq_map, List.getD_eq_getElem?_getD, hlt, hcell]
    have htestBit (k : Nat) :
        ((memory.get ((address + row) % 0x1000)).toNat : Int).testBit k
          = (memory.get ((address + row) % 0x1000)).toNat.testBit k := rfl
    rw [spriteCovers, rowCovers, hbits, htestBit]
    simp [hrow]
  · have hoff : ¬(0 ≤ column ∧ column < 8 ∧ 0 ≤ row ∧ row < height) :=
      fun hcovered => hrow hcovered.2.2
    rw [spriteCovers, List.length_map, length_block, decide_eq_false hrow, decide_eq_false hoff,
      Bool.false_and, Bool.false_and]

namespace Machine

/-- Whether the sprite of `DXYN` has a set bit on a cell. Its corner is at VX and VY, wrapped around
the screen, and what lies beyond the screen is cut off; its rows are the bytes from I on, wrapped
around the memory, and the leftmost bit of a row is bit 7. -/
def spriteBit (machine : Machine) (x y : Fin 16) (n : Nat) (cx cy : Int) : Bool :=
  let column := cx - (machine.registers.get x % 64 : Nat)
  let row := cy - (machine.registers.get y % 32 : Nat)
  decide (0 ≤ column ∧ column < 8 ∧ 0 ≤ row ∧ row < n) &&
    (machine.memory.get ((machine.index + row) % 0x1000)).toNat.testBit (7 - column.toNat)

/-- Whether a set bit of the sprite falls on a lit cell of the screen. -/
def SpriteMeetsLit (machine : Machine) (x y : Fin 16) (n : Nat) : Prop :=
  ∃ cx cy, (0 ≤ cx ∧ cx < 64) ∧ (0 ≤ cy ∧ cy < 32) ∧ machine.spriteBit x y n cx cy = true ∧
    machine.display.pixel cx cy = .ok 1

structure DrawsSprite (x y : Fin 16) (n : Nat) (machine : Machine)
    (outcome : Outcome Machine Unit) : Prop where
  succeeds : outcome.result = .ok ()
  cells : ∀ cx cy, 0 ≤ cx ∧ cx < 64 → 0 ≤ cy ∧ cy < 32 →
    ∃ lit : Bool, machine.display.pixel cx cy = .ok lit.toUInt8 ∧
      outcome.state.display.pixel cx cy = .ok (lit ^^ machine.spriteBit x y n cx cy).toUInt8
  grid : outcome.state.display.width = 64 ∧ outcome.state.display.height = 32 ∧
    outcome.state.display.cells.size = 64 * 32
  dirty : outcome.state.display.dirty = true
  hit : machine.SpriteMeetsLit x y n → outcome.state.registers.get flagRegister = 1
  miss : ¬machine.SpriteMeetsLit x y n → outcome.state.registers.get flagRegister = 0
  registers : ∀ z ≠ flagRegister, outcome.state.registers.get z = machine.registers.get z
  /-- Everything else is as fetching leaves it. -/
  rest : outcome.state =
    { machine with
      opcode := machine.nextOpcode
      pc := (machine.pc + 2) % 0x10000
      registers := outcome.state.registers
      display := outcome.state.display }

/-- The machine behind a `DXYN` that has come to some cells. -/
def drawn (machine : Machine) (cells : Array UInt8) (hit : Bool) : Machine :=
  { machine with
    opcode := machine.nextOpcode
    pc := (machine.pc + 2) % 0x10000
    registers := machine.registers.written flagRegister (if hit then 1 else 0)
    display := { machine.display with cells := cells, dirty := true } }

variable {machine : Machine} {traced : Bool} {i : Instruction} {x y : Fin 16} {n : Nat}

theorem execute_of_draw (hregisters : machine.registers.Whole) (traced : Bool)
    (hop : i.operation = .draw) :
    execute i traced machine =
      drawSprite (machine.registers.get i.x) (machine.registers.get i.y) i.n traced machine := by
  simp only [execute, Step.get_bind, hop, value_bind hregisters]

theorem spriteCovers_eq_spriteBit (hdisplay : machine.display.WellFormed) (cx cy : Int) :
    spriteCovers ((machine.memory.block machine.index n).map fun byte => (byte.toNat : Int))
        (cx - machine.registers.get x % machine.display.width)
        (cy - machine.registers.get y % machine.display.height)
      = machine.spriteBit x y n cx cy := by
  rw [hdisplay.width, hdisplay.height, Memory.spriteCovers_block]
  rfl

/-- The cells come as `drawSprite` leaves them, everything else as `fetch` does. -/
theorem cycle_of_draw (traced : Bool) (hmachine : machine.WellFormed) (hn : n < 0x10)
    (hword : machine.Executes (0xD000 + 0x100 * x + 0x10 * y + n)) :
    ∃ cells hit, machine.display.Turned (machine.spriteBit x y n) cells hit ∧
      (cycle traced machine).state = machine.drawn cells hit ∧
      (cycle traced machine).result = .ok () := by
  have hdigits : 0xD000 + 0x100 * x + 0x10 * y + n = 0x1000 * 0xD + 0x100 * x + 0x10 * y + n := rfl
  obtain ⟨hx, hy, hheight, -⟩ := Instruction.decode_digits hn hdigits
  have hop : (Instruction.decode (0xD000 + 0x100 * x + 0x10 * y + n : Nat)).operation = .draw := by
    rw [hword.operation_decode, Operation.ofWord_eq_draw_iff]
    omega
  obtain ⟨hstate, hresult⟩ := cycle_of_next? hmachine.memory traced hword.next?
  obtain ⟨cells, hit, hturned, hdraw⟩ :=
    drawSprite_eq (machine.fetched.registers.get x) (machine.fetched.registers.get y) n traced
      (whole_fetched hmachine.toWhole) hmachine.display.proper
  rw [execute_of_draw (whole_fetched hmachine.toWhole).registers traced hop, hx, hy, hheight,
    hdraw] at hstate hresult
  refine ⟨cells, hit, hturned.congr ?_, ?_, hresult⟩
  · intro cx cy _
    exact spriteCovers_eq_spriteBit hmachine.display cx cy
  · rw [hstate, fetched_eq]
    rfl

theorem display_has_iff (hdisplay : machine.display.WellFormed) {cx cy : Int} :
    machine.display.Has cx cy ↔ (0 ≤ cx ∧ cx < 64) ∧ 0 ≤ cy ∧ cy < 32 := by
  rw [Display.Has, hdisplay.width, hdisplay.height]
  rfl

theorem hit_iff_spriteMeetsLit {cells : Array UInt8} {hit : Bool}
    (hdisplay : machine.display.WellFormed)
    (hturned : machine.display.Turned (machine.spriteBit x y n) cells hit) :
    hit = true ↔ machine.SpriteMeetsLit x y n := by
  rw [hturned.hit_iff]
  refine exists_congr fun cx => exists_congr fun cy => ?_
  rw [← and_assoc (c := machine.spriteBit x y n cx cy = true ∧ _), ← display_has_iff hdisplay]
  refine and_congr_right fun hcell => and_congr_right fun _ => ?_
  rw [Display.pixel_eq_one_iff hdisplay.proper hcell]

theorem drawsSprite_of_drawn {outcome : Outcome Machine Unit} {cells : Array UInt8} {hit : Bool}
    (hregisters : machine.registers.Whole) (hdisplay : machine.display.WellFormed)
    (hturned : machine.display.Turned (machine.spriteBit x y n) cells hit)
    (hstate : outcome.state = machine.drawn cells hit)
    (hresult : outcome.result = .ok ()) : machine.DrawsSprite x y n outcome := by
  have hafter : outcome.state.display.WellFormed := by
    rw [hstate]
    exact hdisplay.redrawn true hturned.size_eq hturned.bits
  have hflag : outcome.state.registers.get flagRegister = hit.toNat := by
    rw [hstate]
    exact Registers.get_written_flag hregisters hit
  have hmeets := hit_iff_spriteMeetsLit hdisplay hturned
  exact
    { succeeds := hresult
      cells := by
        intro cx cy hcx hcy
        have hcell := (display_has_iff hdisplay).mpr ⟨hcx, hcy⟩
        refine ⟨machine.display.cell cx cy, Display.pixel_eq_cell hdisplay.proper hcell, ?_⟩
        rw [Display.pixel_eq_cell hafter.proper ((display_has_iff hafter).mpr ⟨hcx, hcy⟩),
          ← hturned.cell_eq cx cy hcell, hstate]
        rfl
      grid := ⟨hafter.width, hafter.height, hafter.size⟩
      dirty := by
        rw [hstate]
        rfl
      hit := by
        intro hmeet
        rw [hflag, hmeets.mpr hmeet, Bool.toNat_true]
      miss := by
        intro hmiss
        rw [← hmeets, Bool.not_eq_true] at hmiss
        rw [hflag, hmiss, Bool.toNat_false]
      registers := by
        intro z hz
        rw [hstate]
        exact Registers.get_written_of_ne _ _ hz.symm
      rest := by
        rw [hstate]
        rfl }

/-- From any state that can be reached, `DXYN` draws the sprite at I where VX and VY say, and tells
in VF whether a lit cell was met. -/
theorem cycle_draws_sprite {capacity : Int} {random : RandomBytes} {commands : List Command}
    (traced : Bool) (x y : Fin 16) {n : Nat} (hn : n < 0x10)
    (hword : ((powerOn capacity random).after traced commands).Executes
      (0xD000 + 0x100 * x + 0x10 * y + n)) :
    let machine := (powerOn capacity random).after traced commands
    machine.DrawsSprite x y n (cycle traced machine) := by
  intro machine
  have hmachine : machine.Sound capacity := sound_after traced commands (sound_powerOn _ _)
  obtain ⟨cells, hit, hturned, hstate, hresult⟩ := cycle_of_draw traced hmachine.1 hn hword
  exact drawsSprite_of_drawn hmachine.1.registers hmachine.1.display hturned hstate hresult

/-- A program that puts 62 into VF and draws at the column and the row in VF. -/
theorem executes_clipping {start : Machine} (hstart : start.Whole)
    (hmemory : start.memory = Memory.initial.install #[0x6F, 0x3E, 0xDF, 0xF5])
    (hpc : start.pc = programStart) (hawaiting : start.awaiting = none) :
    (start.after false [.cycle]).Executes 0xDFF5 ∧
      (start.after false [.cycle]).registers.get flagRegister = 62 := by
  have hpc' : start.pc = (programStart + 0 : Nat) := hpc
  have hword : start.Executes 0x6F3E :=
    ⟨hawaiting, nextOpcode_of_install Memory.whole_initial hmemory hpc' (by decide) rfl rfl⟩
  obtain ⟨hdraw, -, hflag⟩ := executes_behind_loadByte hstart flagRegister
    (by decide : 0x3E < 0x100) hword Memory.whole_initial hmemory hpc (by decide) rfl rfl
  exact ⟨hdraw, hflag⟩

/-- The sprite is cut off at both edges, and VF is both coordinates and the flag. -/
theorem cycle_draws_sprite_clipped :
    let commands := [.load [0x6F, 0x3E, 0xDF, 0xF5], .cycle]
    ((powerOn 16 (.cycling #[])).after false commands).Executes 0xDFF5 ∧
      ((powerOn 16 (.cycling #[])).after false commands).registers.get flagRegister = 62 ∧
      ((powerOn 16 (.cycling #[])).after false commands).DrawsSprite flagRegister flagRegister 5
        (cycle false ((powerOn 16 (.cycling #[])).after false commands)) := by
  intro commands
  have hready := @executes_clipping
    ((powerOn 16 (.cycling #[])).after false [.load [0x6F, 0x3E, 0xDF, 0xF5]])
    (whole_after _ _ _ _) rfl rfl rfl
  have hafter : (powerOn 16 (.cycling #[])).after false commands = _ :=
    after_append (powerOn 16 (.cycling #[])) false [.load [0x6F, 0x3E, 0xDF, 0xF5]] [.cycle]
  rw [← hafter] at hready
  obtain ⟨hword, hflag⟩ := hready
  exact ⟨hword, hflag,
    cycle_draws_sprite false flagRegister flagRegister (by decide) hword⟩

end Machine

end ChipEight
