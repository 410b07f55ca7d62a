import ChipEight.Proofs.DirtyFlag
import ChipEight.Proofs.Magnification
import ChipEight.Proofs.Openings
import ChipEight.Proofs.SessionRounds

/-!
The window and the display. Painting is left out in rounds whose frame does not ask for it, and the
window still shows the display at the beginning of every round: what changes the cells puts the flag
up, and what is painted is all that the display holds.
-/

namespace ChipEight

/-- The pictures that some effects bring to the window. -/
def Effect.flipped (effects : List Effect) : List Surface :=
  effects.filterMap fun
    | .flip surface => some surface
    | _ => none

theorem flipped_append (first second : List Effect) :
    Effect.flipped (first ++ second) = Effect.flipped first ++ Effect.flipped second :=
  List.filterMap_append

theorem flipped_of_sounds {effects : List Effect} (hsounds : ∀ effect ∈ effects, effect.sounds) :
    Effect.flipped effects = [] := by
  refine List.filterMap_eq_nil_iff.mpr fun effect heffect => ?_
  have hsound := hsounds effect heffect
  cases effect with
  | flip surface => cases hsound
  | _ => rfl

theorem flipped_update (buzzer : Buzzer) (beeping : Bool) :
    Effect.flipped (buzzer.update beeping) = [] :=
  flipped_of_sounds (buzzer.sounds_update beeping)

namespace Session

variable {session : Session} {traced : Bool} {events : List Event} {scale : Int}

/-- A cycle of a round executes `00E0` or `DXYN`. -/
def Repaints (session : Session) (traced : Bool) (events : List Event) : Prop :=
  ∃ start ∈
      (handle events traced session.machine).state.cycleStarts traced session.cyclesPerFrame.toNat,
    start.Repaints

instance (session : Session) (traced : Bool) (events : List Event) :
    Decidable (session.Repaints traced events) :=
  inferInstanceAs (Decidable (∃ start ∈
    (handle events traced session.machine).state.cycleStarts traced session.cyclesPerFrame.toNat,
    start.Repaints))

theorem flipped_round_of_ok {dirty : Bool}
    (hresult : (session.frameOf traced events).result = .ok dirty) :
    Effect.flipped (session.round traced events).effects
      = if dirty then [(session.round traced events).session.screen.surface] else [] := by
  rw [round_of_ok hresult]
  cases dirty with
  | false => exact flipped_update _ _
  | true => exact congrArg (_ :: ·) (flipped_update _ _)

/-! ### The invariant of the rounds -/

def Shows (scale : Int) (session : Session) : Prop :=
  session.screen.surface.Magnifies scale session.machine.display

/-- The window shows the display, and nothing is left to be painted. -/
structure InStep (scale : Int) (session : Session) : Prop where
  wellFormed : session.machine.WellFormed
  clean : session.machine.display.dirty = false
  shows : session.Shows scale
  scale_eq : session.screen.scale = scale
  keeps : session.screen.windows.KeepsUpTo (max (screenWidth * scale) (screenHeight * scale))

theorem InStep.render (hsession : session.InStep scale) (hpos : 1 ≤ scale) {display : Display}
    (hdisplay : display.WellFormed) :
    (session.screen.render display).surface.Magnifies scale display := by
  obtain ⟨hmachine, -, hshows, rfl, hkeeps⟩ := hsession
  have hsize := Surface.Magnifies.sized hshows
  rw [hmachine.display.width, hmachine.display.height] at hsize
  refine Screen.magnifies_render hdisplay.proper hpos ?_ ?_ ?_
  · rw [hdisplay.width, hdisplay.height]
    exact hkeeps
  · rw [hdisplay.width, hsize.width_eq]
  · rw [hdisplay.height, hsize.height_eq]

/-- The events of a round go to the keypad alone. -/
theorem wellFormed_handle {machine : Machine} (hmachine : machine.WellFormed) (traced : Bool)
    (events : List Event) : (handle events traced machine).state.WellFormed := by
  rw [handle_eq hmachine.keypad]
  exact { hmachine with keypad := Event.whole_foldl_applied hmachine.keypad events }

theorem display_handle {machine : Machine} (hkeypad : machine.keypad.Whole) (traced : Bool)
    (events : List Event) : (handle events traced machine).state.display = machine.display := by
  rw [handle_eq hkeypad]

/-- A round that no fault cuts short brings the window back in step, and flips it if and only if
some cycle executes `00E0` or `DXYN`. -/
theorem InStep.round (hsession : session.InStep scale) (hpos : 1 ≤ scale) (traced : Bool)
    (events : List Event) (hfault : (session.round traced events).fault = none) :
    (session.round traced events).session.InStep scale ∧
      Effect.flipped (session.round traced events).effects =
        if session.Repaints traced events then
          [(session.round traced events).session.screen.surface]
        else [] := by
  have hmachine := wellFormed_handle hsession.wellFormed traced events
  have hkept := display_handle hsession.wellFormed.keypad traced events
  have hframe := frameOf_eq hsession.wellFormed.toWhole traced events
  cases hresult : (session.frameOf traced events).result with
  | error fault =>
      rw [round_of_error hresult] at hfault
      cases hfault
  | ok dirty =>
      rw [hframe] at hresult
      obtain ⟨hafter, hclean, hdirty, hsame⟩ := Machine.display_frame hmachine hresult
      rw [← hframe] at hresult hafter hclean hsame
      have hpainted : dirty = true ↔ session.Repaints traced events := by
        rw [hdirty, Repaints]
        simp only [hkept, hsession.clean, Bool.false_eq_true, false_or]
      rw [flipped_round_of_ok hresult, round_of_ok hresult]
      simp only [← hpainted]
      refine ⟨⟨hafter, hclean, ?_, ?_, ?_⟩, trivial⟩
      · -- Either all cells have just been painted, or none of them has changed.
        cases dirty with
        | true => exact hsession.render hpos hafter.display
        | false =>
            have hdisplay := (hsame rfl).trans hkept
            simp only [Shows, hdisplay, Bool.false_eq_true, if_false]
            exact hsession.shows
      · split
        · exact hsession.scale_eq
        · exact hsession.scale_eq
      · split
        · exact hsession.keeps
        · exact hsession.keeps

/-- Over the rounds of a session the window shows the display at every beginning, and in the end if
the user quits; it is flipped once in every round that is completed and executes `00E0` or `DXYN`,
and in no other. -/
structure KeepsWindow (scale : Int) (traced : Bool) (batches : List (List Event))
    (session : Session) : Prop where
  round_eq : ∀ k (hk : k < (session.rounds traced batches).length),
    (session.rounds traced batches)[k]
      = (session.start traced batches k).round traced (eventsOf batches k)
  begins : ∀ k < (session.rounds traced batches).length,
    (session.start traced batches k).Shows scale
  ends : Run.endingOf (session.rounds traced batches) = .completed →
    (session.after (session.rounds traced batches)).Shows scale
  flips : ∀ k (hk : k < (session.rounds traced batches).length),
    let round := (session.rounds traced batches)[k]
    Effect.flipped round.effects =
      if round.fault = none ∧
        (session.start traced batches k).Repaints traced (eventsOf batches k)
      then [round.session.screen.surface] else []

theorem fault_of_completed {rounds : List Round} (hending : Run.endingOf rounds = .completed)
    (round : Round) (hlast : rounds.getLast? = some round) : round.fault = none := by
  obtain ⟨session, effects, notes, fault⟩ := round
  cases fault with
  | none => rfl
  | some fault =>
      rw [Run.endingOf, hlast] at hending
      cases hending

theorem InStep.keepsWindow (hsession : session.InStep scale) (hpos : 1 ≤ scale) (traced : Bool)
    (batches : List (List Event)) : session.KeepsWindow scale traced batches := by
  have hround : ∀ (session : Session) (events : List Event), session.InStep scale →
      (session.round traced events).fault = none →
      (session.round traced events).session.InStep scale :=
    fun session events hstart hfault => (hstart.round hpos traced events hfault).1
  refine ⟨fun k hk => getElem_rounds hk, fun k hk => (invariant hsession hround hk).shows,
    fun hending => (invariant_after hsession hround (fault_of_completed hending)).shows,
    fun k hk => ?_⟩
  have hstart := invariant hsession hround hk
  dsimp only
  rw [getElem_rounds hk]
  generalize session.start traced batches k = begun at hstart ⊢
  cases hresult : (begun.frameOf traced (eventsOf batches k)).result with
  | error fault =>
      rw [round_of_error hresult]
      exact (if_neg (by simp)).symm
  | ok dirty =>
      have hfault : (begun.round traced (eventsOf batches k)).fault = none := by
        rw [round_of_ok hresult]
      rw [(hstart.round hpos traced _ hfault).2]
      simp only [hfault, true_and]

end Session

/-! ### Opening a session -/

/-- A run has flipped nothing, or one picture of the display that its machine is left with. -/
def Run.ShowsWhatItFlips (scale : Int) (run : Run) : Prop :=
  Effect.flipped run.effects = [] ∨
    ∃ machine surface, run.machine = some machine ∧ Effect.flipped run.effects = [surface] ∧
      surface.Magnifies scale machine.display

namespace Opening

variable {options : CommandLine.Options} {surroundings : Surroundings} {scale : Int}

/-- A run that ends once its window is open leaves the blank display that it shows. -/
theorem showsWhatItFlips_ofMachine? (hscale : options.scale = some scale) (hpos : 1 ≤ scale)
    (hwindows : surroundings.windows.Faithful (screenWidth * scale) (screenHeight * scale))
    {file : String} {machine : Machine} {loading : List String} {run : Run}
    (hblank : machine.display = .blank screenWidth screenHeight)
    (hopening : ofMachine? options file surroundings machine loading = .error run) :
    run.ShowsWhatItFlips scale := by
  rw [ofMachine?] at hopening
  cases hopened : Screen.open? surroundings.windows screenWidth screenHeight scale with
  | error reason =>
      rw [Run.openScreen_of_error hscale hopened] at hopening
      obtain rfl := Except.error.inj hopening
      exact .inl rfl
  | ok screen =>
      rw [Run.openScreen_of_ok hscale hopened, Run.setUpBuzzer] at hopening
      obtain ⟨hshows, -⟩ :=
        Screen.magnifies_opened hwindows (by decide) (by decide) hpos hopened
      rw [← hblank] at hshows
      cases hvolume : options.volume with
      | none =>
          rw [hvolume] at hopening
          obtain rfl := Except.error.inj hopening
          exact .inl rfl
      | some volume =>
          rw [hvolume] at hopening
          dsimp only at hopening
          have hdone : Effect.flipped (Run.preparation file ++
              (Buzzer.setUp surroundings.room volume options.mute surroundings.mixer).effects)
                = [] := by
            rw [flipped_append, flipped_of_sounds (Buzzer.sounds_setUp _ _ _ _)]
            rfl
          split at hopening
          · obtain rfl := Except.error.inj hopening
            exact .inl hdone
          · split at hopening
            · split at hopening
              · obtain rfl := Except.error.inj hopening
                refine .inr ⟨_, screen.surface, rfl, ?_, hshows⟩
                simp only [Run.withoutCycles, Run.early, flipped_append, hdone]
                rfl
              · cases hopening
            · obtain rfl := Except.error.inj hopening
              refine .inr ⟨machine, screen.surface, rfl, ?_, hshows⟩
              simp only [Run.early, flipped_append, hdone]
              rfl

/-- What a run has come to before its first frame: something keeps it from that, or its session has
been opened in step, with one flip. -/
def Ready (options : CommandLine.Options) (surroundings : Surroundings) (scale : Int) :
    Except Run Opening → Prop
  | .error run =>
      Run.Hindered options surroundings run.ending ∧ run.ShowsWhatItFlips scale
  | .ok opening =>
      opening.session.InStep scale ∧
        Effect.flipped opening.effects = [opening.session.screen.surface]

theorem Opens.inStep {file : String} {machine : Machine} {opening : Opening}
    (hopens : Opens options surroundings file machine opening)
    (hscale : options.scale = some scale) (hpos : 1 ≤ scale)
    (hwindows : surroundings.windows.Faithful (screenWidth * scale) (screenHeight * scale))
    (hmachine : machine.WellFormed)
    (hblank : machine.display = .blank screenWidth screenHeight) :
    opening.session.InStep scale ∧
      Effect.flipped opening.effects = [opening.session.screen.surface] := by
  cases hopens with
  | intro lines hscale' hscreen hvolume hfault hpace hcycles =>
      rw [hscale, Option.some.injEq] at hscale'
      subst hscale'
      obtain ⟨hshows, hsystem, hside, hkeeps⟩ :=
        Screen.magnifies_opened hwindows (by decide) (by decide) hpos hscreen
      refine ⟨⟨hmachine, ?_, ?_, hside, ?_⟩, ?_⟩
      · rw [hblank]
        rfl
      · simp only [Session.Shows, hblank]
        exact hshows
      · rw [hsystem]
        exact hkeeps
      · rw [flipped_append, flipped_append, flipped_of_sounds (Buzzer.sounds_setUp _ _ _ _)]
        rfl

theorem ready_ofArguments? {arguments : List String}
    (hparse : CommandLine.parse arguments = .ok options) (hscale : options.scale = some scale)
    (hpos : 1 ≤ scale)
    (hwindows : surroundings.windows.Faithful (screenWidth * scale) (screenHeight * scale)) :
    Ready options surroundings scale (ofArguments? arguments surroundings) := by
  have hopens := opens_ofArguments? surroundings hparse hscale
  cases hopening : ofArguments? arguments surroundings with
  | error run =>
      rw [hopening] at hopens
      refine ⟨hopens, ?_⟩
      rcases ofArguments?_cases arguments surroundings with
        ⟨ended, hended, heffects⟩ | ⟨options', file, machine, loading, hparse', hblank, hmachine⟩
      · obtain rfl := Except.error.inj (hopening.symm.trans hended)
        exact .inl (by rw [heffects]; rfl)
      · rw [hparse, Except.ok.injEq] at hparse'
        subst hparse'
        exact showsWhatItFlips_ofMachine? hscale hpos hwindows hblank (hmachine.symm.trans hopening)
  | ok opening =>
      rw [hopening] at hopens
      obtain ⟨file, program, -, -, -, hopens⟩ := hopens
      have hstart := Machine.sound_powerOn defaultStackCapacity surroundings.random
      have hload := Machine.keeps_sound_load program surroundings.traced _ hstart
      exact hopens.inStep hscale hpos hwindows hload.1.1 rfl

end Opening

/-- If a command line sets a scale, the run either is kept from its first frame by one of the known
hindrances, behind a window that is not open yet or shows the display, or is made of the rounds of a
session that was opened with one flip and keeps its window. -/
theorem window_shows_display {arguments : List String} {surroundings : Surroundings}
    {options : CommandLine.Options} {scale : Int}
    (hparse : CommandLine.parse arguments = .ok options) (hscale : options.scale = some scale)
    (hpos : 1 ≤ scale)
    (hwindows : surroundings.windows.Faithful (screenWidth * scale) (screenHeight * scale)) :
    match Opening.ofArguments? arguments surroundings with
    | .error run =>
        Run.ofArguments arguments surroundings = run ∧
          Run.Hindered options surroundings run.ending ∧ run.ShowsWhatItFlips scale
    | .ok opening =>
        Run.ofArguments arguments surroundings = .ofOpening opening surroundings ∧
          Effect.flipped opening.effects = [opening.session.screen.surface] ∧
          opening.session.KeepsWindow scale surroundings.traced surroundings.batches := by
  have hready := Opening.ready_ofArguments? hparse hscale hpos hwindows
  rw [Run.ofArguments]
  cases hopening : Opening.ofArguments? arguments surroundings with
  | error run =>
      rw [hopening] at hready
      exact ⟨rfl, hready⟩
  | ok opening =>
      rw [hopening] at hready
      obtain ⟨hsession, hflipped⟩ := hready
      exact ⟨rfl, hflipped, hsession.keepsWindow hpos surroundings.traced surroundings.batches⟩

/-- A program that clears the display again and again, in a window of 128 by 64 pixels. -/
theorem window_shows_display_clearing :
    let arguments := ["-f", "clear.ch8", "-s", "2"]
    let surroundings : Surroundings :=
      { read := fun _ => .ok [0x00, 0xE0, 0x12, 0x00]
        room := .ample
        windows := .boundless
        mixer := ⟨none, fun _ => .error "no sound"⟩
        clock := .doubles
        random := .cycling #[7]
        batches := [[], [.keyDown 49]]
        traced := false }
    ∃ opening, Opening.ofArguments? arguments surroundings = .ok opening ∧
      Run.ofArguments arguments surroundings = .ofOpening opening surroundings ∧
      Effect.flipped opening.effects = [opening.session.screen.surface] ∧
      opening.session.KeepsWindow 2 false [[], [.keyDown 49]] := by
  intro arguments surroundings
  let options : CommandLine.Options :=
    { file := some "clear.ch8"
      cycles := some defaultCyclesPerFrame
      fps := some defaultFramesPerSecond
      scale := some 2
      mute := false
      volume := some defaultVolume }
  have hparse : CommandLine.parse arguments = .ok options := rfl
  have hscale : options.scale = some 2 := rfl
  have hwindows : surroundings.windows.Faithful (screenWidth * 2) (screenHeight * 2) :=
    WindowSystem.faithful_boundless _ _
  have hkeeps := window_shows_display hparse hscale (by decide) hwindows
  have hopened : (Opening.ofArguments? arguments surroundings).isOk = true := rfl
  cases hopening : Opening.ofArguments? arguments surroundings with
  | error run =>
      rw [hopening] at hopened
      cases hopened
  | ok opening =>
      rw [hopening] at hkeeps
      exact ⟨opening, rfl, hkeeps⟩

end ChipEight
