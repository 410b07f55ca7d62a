import ChipEight.Proofs.DirtyFlag

/-!
Taking the flag. Whoever finds the flag down sees the cells of the last time that it was taken,
whatever was done in between, frames that failed included. The exception is a reset: it puts a blank
display in the place of the old one with the flag down, so that nothing tells of the change.
-/

namespace ChipEight

/-- The last taking of the flag: the cells of then, and whether the machine was reset since. -/
structure Taking where
  cells : Array UInt8
  resetSince : Bool

namespace Taking

/-- Nothing has been taken yet, but everybody knows that the display is blank. -/
def initial : Taking :=
  ⟨(Display.blank screenWidth screenHeight).cells, false⟩

/-- The cells that the flag stands for while it is down. -/
def standing (taking : Taking) : Array UInt8 :=
  if taking.resetSince then initial.cells else taking.cells

/-- The last taking behind a command. Only what answers with the flag takes it. -/
def next (taking : Taking) (command : Command) (outcome : Outcome Machine (Option Bool)) :
    Taking :=
  match outcome.result with
  | .ok (some _) => ⟨outcome.state.display.cells, false⟩
  | _ => ⟨taking.cells, taking.resetSince || command = .reset⟩

variable {taking : Taking} {command : Command} {outcome : Outcome Machine (Option Bool)}

theorem standing_next_of_some {dirty : Bool} (hresult : outcome.result = .ok (some dirty)) :
    (taking.next command outcome).standing = outcome.state.display.cells := by
  rw [next, hresult]
  rfl

theorem standing_next_reset (hresult : ∀ dirty, outcome.result ≠ .ok (some dirty)) :
    (taking.next .reset outcome).standing = initial.cells := by
  unfold next
  split
  · exact absurd ‹_› (hresult _)
  · simp [standing]

theorem standing_next_of_ne (hreset : command ≠ .reset)
    (hresult : ∀ dirty, outcome.result ≠ .ok (some dirty)) :
    (taking.next command outcome).standing = taking.standing := by
  unfold next
  split
  · exact absurd ‹_› (hresult _)
  · simp [standing, hreset]

end Taking

namespace Machine

def lastTaking (machine : Machine) (traced : Bool) (taking : Taking) : List Command → Taking
  | [] => taking
  | command :: rest =>
      let outcome := perform command traced machine
      outcome.state.lastTaking traced (taking.next command outcome) rest

/-- The flag is up, or the display has not changed. -/
def Marked (before after : Machine) : Prop :=
  after.display.dirty = true ∨ after.display = before.display

variable {machine between after : Machine} {traced : Bool} {command : Command}

theorem lastTaking_append (machine : Machine) (traced : Bool) (taking : Taking)
    (first second : List Command) :
    machine.lastTaking traced taking (first ++ second)
      = (machine.after traced first).lastTaking traced (machine.lastTaking traced taking first)
        second := by
  induction first generalizing machine taking with
  | nil => rfl
  | cons command rest ih => exact ih _ _

theorem Marked.trans (hfirst : Marked machine between) (hsecond : Marked between after) :
    Marked machine after := by
  rcases hsecond with hdirty | hsame
  · exact .inl hdirty
  · unfold Marked
    rwa [hsame]

theorem Turn.marked {result : Except Fault Unit} (h : Turn machine after result) :
    Marked machine after := by
  have hdisplay := h.display
  by_cases hpaints : machine.Repaints
  · rw [if_pos hpaints] at hdisplay
    exact .inl hdisplay
  · rw [if_neg hpaints] at hdisplay
    exact .inr hdisplay

theorem marked_cycles (hmachine : machine.WellFormed) (count : Nat) :
    Marked machine (cycles count traced machine).state := by
  induction count generalizing machine with
  | zero => exact .inr rfl
  | succ count ih =>
      -- A fault ends the cycles, but what was painted before it is marked already.
      have hturn := cycle_turn traced hmachine
      cases hresult : (cycle traced machine).result with
      | error fault =>
          rw [cycles, Step.bind_of_error hresult]
          exact hturn.marked
      | ok done =>
          rw [cycles, Step.bind_of_ok hresult]
          exact hturn.marked.trans (ih (hturn.wellFormed hmachine))

theorem marked_perform (hmachine : machine.WellFormed) (hreset : command ≠ .reset)
    (hresult : ∀ dirty, (perform command traced machine).result ≠ .ok (some dirty)) :
    Marked machine (perform command traced machine).state := by
  cases command with
  | load program =>
      rw [state_perform_load]
      exact .inr rfl
  | cycle =>
      rw [state_perform_cycle]
      exact (cycle_turn traced hmachine).marked
  | frame count =>
      rw [state_perform_frame]
      cases hcycles : (cycles count.toNat traced machine).result with
      | ok done => exact absurd (result_perform_frame (frame_of_ok hcycles).2) (hresult _)
      | error fault =>
          rw [(frame_of_error hcycles).1]
          exact marked_cycles hmachine count.toNat
  | tick => exact .inr rfl
  | press key =>
      rw [state_perform_press]
      exact .inr rfl
  | release key =>
      rw [state_perform_release]
      exact .inr rfl
  | takeDirty => exact absurd rfl (hresult machine.display.dirty)
  | reset => exact absurd rfl hreset

/-- A flag that is found down was down before, and the display is as it was. -/
theorem display_of_flag_down (hmachine : machine.WellFormed)
    (hresult : (perform command traced machine).result = .ok (some false)) :
    machine.display.dirty = false ∧
      (perform command traced machine).state.display = machine.display := by
  cases command with
  | frame count =>
      cases hframe : (frame count traced machine).result with
      | error fault =>
          rw [perform, Step.bind_of_error hframe] at hresult
          cases hresult
      | ok dirty =>
          rw [result_perform_frame hframe] at hresult
          obtain rfl : dirty = false := by simpa using hresult
          obtain ⟨-, -, hdirty, hdisplay⟩ := display_frame hmachine hframe
          rw [state_perform_frame]
          refine ⟨Bool.eq_false_iff.mpr fun hup => ?_, hdisplay rfl⟩
          exact absurd (hdirty.mpr (.inl hup)) Bool.false_ne_true
  | takeDirty =>
      have hdirty : machine.display.dirty = false := by
        simpa [perform, takeDirty, onDisplay, Display.takeDirty] using hresult
      have hstate : (perform .takeDirty traced machine).state.display
          = { machine.display with dirty := false } := rfl
      refine ⟨hdirty, ?_⟩
      rw [hstate, ← hdirty]
  | load program => exact absurd hresult (result_bind_none (load program))
  | cycle => exact absurd hresult (result_bind_none cycle)
  | press key => exact absurd hresult (result_bind_none (onKeypad (Keypad.press key)))
  | release key => exact absurd hresult (result_bind_none (onKeypad (Keypad.release key)))
  | tick | reset => cases hresult

theorem cells_perform (hmachine : machine.WellFormed) {taking : Taking}
    (hcells : machine.display.dirty = false → machine.display.cells = taking.standing) :
    let outcome := perform command traced machine
    outcome.state.display.dirty = false →
      outcome.state.display.cells = (taking.next command outcome).standing := by
  intro outcome hclean
  -- Takings and resets set the cells that count; behind all else a display whose flag is down is
  -- the one from before.
  by_cases hanswer : ∃ dirty, outcome.result = .ok (some dirty)
  · obtain ⟨dirty, hresult⟩ := hanswer
    exact (Taking.standing_next_of_some hresult).symm
  · rw [not_exists] at hanswer
    by_cases hreset : command = .reset
    · subst hreset
      rw [Taking.standing_next_reset hanswer]
      rfl
    · rw [Taking.standing_next_of_ne hreset hanswer]
      rcases marked_perform hmachine hreset hanswer with hdirty | hsame
      · rw [hdirty] at hclean
        cases hclean
      · rw [hsame] at hclean ⊢
        exact hcells hclean

theorem cells_after {capacity : Int} (commands : List Command) (hmachine : machine.Sound capacity)
    {taking : Taking}
    (hcells : machine.display.dirty = false → machine.display.cells = taking.standing) :
    (machine.after traced commands).display.dirty = false →
      (machine.after traced commands).display.cells
        = (machine.lastTaking traced taking commands).standing := by
  induction commands generalizing machine taking with
  | nil => exact hcells
  | cons command rest ih =>
      exact ih (keeps_sound_perform command traced machine hmachine).1
        (cells_perform hmachine.1 hcells)

/-! ### A glyph in the corner -/

theorem lit_of_draw :
    (Display.draw (0 : Nat) (0 : Nat)
      (([0xF0, 0x90, 0x90, 0x90, 0xF0] : List UInt8).map fun byte => (byte.toNat : Int)) false
      (.blank screenWidth screenHeight)).state.cells[0]? = some 1 := by
  decide +kernel

/-- A program that draws the glyph of zero lights the corner of a blank display. -/
theorem lit_of_glyph (hmachine : machine.Whole)
    (hmemory : machine.memory = Memory.initial.install #[0xD0, 0x05])
    (hpc : machine.pc = programStart) (hindex : machine.index = 0)
    (hawaiting : machine.awaiting = none) (hregisters : machine.registers = .zero)
    (hdisplay : machine.display = .blank screenWidth screenHeight) :
    (cycle false machine).state.display.cells[0]? = some 1 := by
  have hnext : machine.next? = some (.decode 0xD005) :=
    next?_of_install Memory.whole_initial hmemory hpc hawaiting (by decide) rfl rfl
  have hglyph : machine.memory.block 0 5 = [0xF0, 0x90, 0x90, 0x90, 0xF0] := by
    have hfont : ∀ k ∈ List.range 5,
        machine.memory.get (0 + (k : Nat)) = fontSprites.getD k 0 := by
      intro k hk
      have hk' : k < 5 := List.mem_range.mp hk
      have hlength : k < fontSprites.length := hk'.trans (by decide)
      have hbelow : (k : Int) < programStart := by
        simp only [programStart]
        omega
      rw [hmemory, Int.zero_add,
        Memory.get_install_below Memory.whole_initial _ (Int.natCast_nonneg k) hbelow,
        Memory.get_initial hlength, List.getD_eq_getElem?_getD, List.getElem?_eq_getElem hlength,
        Option.getD_some]
    rw [Memory.block_eq_map, List.map_congr_left hfont]
    rfl
  have hzero : ∀ x, Registers.zero.get x = 0 := by decide
  have hop : (Instruction.decode 0xD005).operation = .draw := rfl
  have hn : (Instruction.decode 0xD005).n = 5 := rfl
  have hfetched := whole_fetched hmachine
  rw [(cycle_of_next? hmachine.memory false hnext).1]
  simp only [execute, Step.get_bind, hop, value_bind hfetched.registers]
  rw [display_drawSprite _ _ _ _ hfetched]
  simp only [fetched, hregisters, hzero, hn, hindex, hglyph, hdisplay]
  exact lit_of_draw

/-- Drawing a glyph changes the blank display. -/
theorem cells_after_glyph :
    ((powerOn 16 (.cycling #[])).after false [.load [0xD0, 0x05], .cycle]).display.cells
      ≠ Taking.initial.cells := by
  intro hblank
  have hlit := lit_of_glyph (whole_after false 16 (.cycling #[]) [.load [0xD0, 0x05]])
    rfl rfl rfl rfl rfl rfl
  rw [after, after, after, state_perform_cycle] at hblank
  rw [after, after, hblank] at hlit
  simp [Taking.initial, Display.blank, screenWidth, screenHeight] at hlit

/-! ### The flag taken down -/

/-- Whenever a frame or a taking answers that there is nothing to paint, the cells are those of the
last taking, or blank if the machine was reset since. -/
theorem cells_of_flag_down (traced : Bool) (capacity : Int) (random : RandomBytes)
    (commands : List Command) (command : Command)
    (hresult : (perform command traced ((powerOn capacity random).after traced commands)).result
      = .ok (some false)) :
    (perform command traced ((powerOn capacity random).after traced commands)).state.display.cells
      = ((powerOn capacity random).lastTaking traced .initial commands).standing := by
  have hstart := sound_powerOn capacity random
  obtain ⟨hclean, hdisplay⟩ :=
    display_of_flag_down (sound_after traced commands hstart).1 hresult
  rw [hdisplay]
  exact cells_after commands hstart (fun _ => rfl) hclean

theorem cells_of_flag_down_drawn :
    let commands := [.load [0xD0, 0x05], .cycle, .takeDirty, .press 5, .load []]
    let machine := (powerOn 16 (.cycling #[])).after false commands
    let taking := (powerOn 16 (.cycling #[])).lastTaking false .initial commands
    (perform (.frame 0) false machine).result = .ok (some false) ∧
      (perform (.frame 0) false machine).state.display.cells = taking.standing ∧
      taking.standing ≠ Taking.initial.cells := by
  intro commands machine taking
  have hclean : ∀ drawn : Machine,
      (drawn.after false [.takeDirty, .press 5, .load []]).display.dirty = false := by
    intro drawn
    rw [after, after, after, after, state_perform_load, state_perform_press]
    rfl
  have hmachine := after_append (powerOn 16 (.cycling #[])) false [.load [0xD0, 0x05], .cycle]
    [.takeDirty, .press 5, .load []]
  have hframe : ∀ machine : Machine,
      (perform (.frame 0) false machine).result = .ok (some machine.display.dirty) := fun _ => rfl
  have hresult : (perform (.frame 0) false machine).result = .ok (some false) := by
    rw [hframe, show machine = _ from hmachine, hclean]
  have htaking := lastTaking_append (powerOn 16 (.cycling #[])) false .initial
    [.load [0xD0, 0x05], .cycle] [.takeDirty, .press 5, .load []]
  refine ⟨hresult, cells_of_flag_down false 16 (.cycling #[]) commands (.frame 0) hresult, ?_⟩
  have hlater : ∀ (drawn : Machine) (earlier : Taking),
      (drawn.lastTaking false earlier [.takeDirty, .press 5, .load []]).standing
        = drawn.display.cells := by
    intro drawn earlier
    refine (Taking.standing_next_of_ne (by decide) fun _ => ?_).trans
      ((Taking.standing_next_of_ne (by decide) fun _ => ?_).trans rfl)
    · exact result_bind_none (load [])
    · exact result_bind_none (onKeypad (Keypad.press 5))
  rw [show taking = _ from htaking, hlater]
  exact cells_after_glyph

theorem reset_hides_change :
    let commands := [.load [0xD0, 0x05], .cycle, .takeDirty, .reset]
    let machine := (powerOn 16 (.cycling #[])).after false commands
    let taking := (powerOn 16 (.cycling #[])).lastTaking false .initial commands
    (perform .takeDirty false machine).result = .ok (some false) ∧
      (perform .takeDirty false machine).state.display.cells ≠ taking.cells := by
  intro commands machine taking
  have htaking := lastTaking_append (powerOn 16 (.cycling #[])) false .initial
    [.load [0xD0, 0x05], .cycle] [.takeDirty, .reset]
  refine ⟨rfl, ?_⟩
  have hlater : ∀ (drawn : Machine) (earlier : Taking),
      (drawn.lastTaking false earlier [.takeDirty, .reset]).cells = drawn.display.cells :=
    fun _ _ => rfl
  have hblank : ∀ drawn : Machine,
      (perform .takeDirty false (drawn.after false [.takeDirty, .reset])).state.display.cells
        = Taking.initial.cells := fun _ => rfl
  have hmachine := after_append (powerOn 16 (.cycling #[])) false [.load [0xD0, 0x05], .cycle]
    [.takeDirty, .reset]
  rw [show machine = _ from hmachine, hblank, show taking = _ from htaking, hlater]
  exact cells_after_glyph.symm

end Machine

end ChipEight
