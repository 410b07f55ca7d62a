import ChipEight.Proofs.Commands
import ChipEight.Proofs.Openings
import ChipEight.Proofs.SessionRounds

/-!
The rounds of a session as commands to its machine. In a round the keys of all its events go down or
up, those behind the event with which the user quits included, and then a frame is run. The first
round in which the user quits or a cycle fails is the last.
-/

namespace ChipEight

namespace Event

def command? : Event → Option Command
  | keyDown code => (keyOf? code).map fun key => .press key
  | keyUp code => (keyOf? code).map fun key => .release key
  | quit | other => none

/-- The user closes the window or presses the escape key. -/
def quits : Event → Bool
  | quit => true
  | keyDown code => code = escapeCode
  | keyUp _ | other => false

theorem goesOn_eq (event : Event) : event.goesOn = !event.quits := by
  cases event <;> rfl

end Event

/-- The effects by which rounds begin. -/
def Effect.isFrame : Effect → Bool
  | .frame _ => true
  | _ => false

namespace Session

def roundCommands (cycles : Int) (events : List Event) : List Command :=
  events.filterMap Event.command? ++ [.frame cycles]

def script (cycles : Int) (batches : List (List Event)) (count : Nat) : List Command :=
  (List.range count).flatMap fun k => roundCommands cycles (eventsOf batches k)

def quitRound (batches : List (List Event)) : Nat :=
  batches.findIdx fun events => events.any Event.quits

/-- The frame of a round, if every round before it has been carried out. -/
def roundFrame (machine : Machine) (traced : Bool) (cycles : Int) (batches : List (List Event))
    (k : Nat) : Outcome Machine Bool :=
  Machine.frame cycles traced
    (machine.after traced
      (script cycles batches k ++ (eventsOf batches k).filterMap Event.command?))

variable {session : Session} {traced : Bool} {batches : List (List Event)} {cycles : Int}

/-! ### One round -/

theorem goesOn_eq (events : List Event) : goesOn events = !events.any Event.quits := by
  rw [goesOn, List.all_eq_not_any_not]
  simp only [Event.goesOn_eq, Bool.not_not]

theorem handle_singleton {machine : Machine} (hkeypad : machine.keypad.Whole) (traced : Bool)
    (event : Event) :
    (handle [event] traced machine).state = machine.after traced event.command?.toList := by
  rw [handle_eq hkeypad]
  cases event with
  | keyDown code =>
      cases hkey : Event.keyOf? code with
      | none => simp [Event.applied, Event.command?, hkey, Machine.after]
      | some key =>
          simp [Event.applied, Event.command?, hkey, Machine.after, Machine.onKeypad,
            Keypad.press_eq hkeypad]
  | keyUp code =>
      cases hkey : Event.keyOf? code with
      | none => simp [Event.applied, Event.command?, hkey, Machine.after]
      | some key =>
          simp [Event.applied, Event.command?, hkey, Machine.after, Machine.onKeypad,
            Keypad.release_eq hkeypad]
  | quit => rfl
  | other => rfl

theorem handle_eq_after {machine : Machine} (hmachine : machine.Whole) (traced : Bool)
    (events : List Event) :
    (handle events traced machine).state
      = machine.after traced (events.filterMap Event.command?) := by
  induction events generalizing machine with
  | nil => rfl
  | cons event rest ih =>
      have hcons : (event :: rest).filterMap Event.command?
          = event.command?.toList ++ rest.filterMap Event.command? := by
        cases hcommand : event.command? with
        | none => rw [List.filterMap_cons_none hcommand]; rfl
        | some command => rw [List.filterMap_cons_some hcommand]; rfl
      rw [hcons, Machine.after_append, ← handle_singleton hmachine.keypad,
        ← ih (keepsWhole_handle [event] traced machine hmachine),
        ← state_handle_append hmachine.keypad]
      rfl

theorem machine_round (hmachine : session.machine.Whole) (traced : Bool) (events : List Event) :
    (session.round traced events).session.machine
      = session.machine.after traced (roundCommands session.cyclesPerFrame events) := by
  have hframe : (session.frameOf traced events).state
      = session.machine.after traced (roundCommands session.cyclesPerFrame events) := by
    rw [roundCommands, Machine.after_append, ← handle_eq_after hmachine, frameOf_eq hmachine]
    exact (Machine.state_perform_frame session.cyclesPerFrame).symm
  rw [← hframe]
  cases hresult : (session.frameOf traced events).result with
  | ok dirty => rw [round_of_ok hresult]
  | error fault => rw [round_of_error hresult]

theorem cyclesPerFrame_round (session : Session) (traced : Bool) (events : List Event) :
    (session.round traced events).session.cyclesPerFrame = session.cyclesPerFrame := by
  cases hresult : (session.frameOf traced events).result with
  | ok dirty => rw [round_of_ok hresult]
  | error fault => rw [round_of_error hresult]

theorem script_succ (cycles : Int) (batches : List (List Event)) (count : Nat) :
    script cycles batches (count + 1)
      = script cycles batches count ++ roundCommands cycles (eventsOf batches count) := by
  rw [script, script, List.range_succ, List.flatMap_append, List.flatMap_singleton]

theorem script_cons (cycles : Int) (events : List Event) (rest : List (List Event))
    (count : Nat) :
    script cycles (events :: rest) (count + 1)
      = roundCommands cycles events ++ script cycles rest count := by
  rw [script, script, List.range_succ_eq_map, List.flatMap_cons, List.flatMap_map]
  rfl

theorem roundFrame_cons (hmachine : session.machine.Whole) (traced : Bool) (events : List Event)
    (rest : List (List Event)) (k : Nat) :
    roundFrame session.machine traced session.cyclesPerFrame (events :: rest) (k + 1)
      = roundFrame (session.round traced events).session.machine traced
        (session.round traced events).session.cyclesPerFrame rest k := by
  rw [roundFrame, roundFrame, machine_round hmachine, cyclesPerFrame_round, script_cons,
    List.append_assoc, Machine.after_append]
  rfl

/-! ### All rounds -/

theorem start_of_le (hmachine : session.machine.Whole) {k : Nat}
    (hk : k ≤ (session.rounds traced batches).length) :
    (session.start traced batches k).cyclesPerFrame = session.cyclesPerFrame ∧
      (session.start traced batches k).machine
        = session.machine.after traced (script session.cyclesPerFrame batches k) := by
  induction k with
  | zero => exact ⟨rfl, rfl⟩
  | succ k ih =>
      obtain ⟨hcycles, hreached⟩ := ih (Nat.le_of_succ_le hk)
      have hwhole : (session.start traced batches k).machine.Whole := by
        rw [hreached]
        exact hmachine.after traced _
      rw [start_succ hk, getElem_rounds hk, cyclesPerFrame_round, machine_round hwhole, hcycles,
        hreached, script_succ, Machine.after_append]
      exact ⟨rfl, rfl⟩

theorem frameOf_start (hmachine : session.machine.Whole) {k : Nat}
    (hk : k ≤ (session.rounds traced batches).length) :
    (session.start traced batches k).frameOf traced (eventsOf batches k)
      = roundFrame session.machine traced session.cyclesPerFrame batches k := by
  obtain ⟨hcycles, hreached⟩ := start_of_le hmachine hk
  have hwhole : (session.start traced batches k).machine.Whole := by
    rw [hreached]
    exact hmachine.after traced _
  rw [frameOf_eq hwhole, handle_eq_after hwhole, hcycles, hreached, ← Machine.after_append]
  rfl

/-! ### The last round -/

theorem fault_round_of_ok {events : List Event} {dirty : Bool}
    (hresult : (session.frameOf traced events).result = .ok dirty) :
    (session.round traced events).fault = none := by
  rw [round_of_ok hresult]

theorem quitRound_cons (events : List Event) (rest : List (List Event)) :
    quitRound (events :: rest)
      = if events.any Event.quits then 0 else quitRound rest + 1 := by
  rw [quitRound, List.findIdx_cons, cond_eq_ite]
  rfl

theorem rounds_cons_of_quits {events : List Event} (hquits : events.any Event.quits)
    (rest : List (List Event)) :
    session.rounds traced (events :: rest) = [session.round traced events] := by
  rw [rounds, goesOn_eq, hquits, Bool.not_true, Bool.and_false]
  rfl

theorem rounds_cons_of_error {events : List Event} {fault : Fault}
    (hresult : (session.frameOf traced events).result = .error fault)
    (rest : List (List Event)) :
    session.rounds traced (events :: rest) = [session.round traced events] := by
  rw [rounds, round_of_error hresult]
  rfl

theorem rounds_cons_of_ok {events : List Event} {dirty : Bool}
    (hquits : ¬events.any Event.quits)
    (hresult : (session.frameOf traced events).result = .ok dirty) (rest : List (List Event)) :
    session.rounds traced (events :: rest) =
      session.round traced events :: (session.round traced events).session.rounds traced rest := by
  rw [Bool.not_eq_true] at hquits
  rw [rounds, goesOn_eq, fault_round_of_ok hresult, hquits]
  rfl

theorem roundFrame_zero (hmachine : session.machine.Whole) (traced : Bool) (events : List Event)
    (rest : List (List Event)) :
    roundFrame session.machine traced session.cyclesPerFrame (events :: rest) 0
      = session.frameOf traced events := by
  rw [frameOf_eq hmachine, handle_eq_after hmachine]
  rfl

/-- The rounds end with the first in which the user quits or the frame fails. -/
theorem length_rounds (hmachine : session.machine.Whole) {last : Nat}
    (hquit : last ≤ quitRound batches)
    (hbefore : ∀ k < last, ∃ dirty,
      (roundFrame session.machine traced session.cyclesPerFrame batches k).result = .ok dirty)
    (hends : last = quitRound batches ∨ ∃ fault,
      (roundFrame session.machine traced session.cyclesPerFrame batches last).result
        = .error fault) :
    (session.rounds traced batches).length = last + 1 := by
  -- On the batches: the rounds behind the first are those of the session that it leaves, whose
  -- frames are the later ones of this session.
  induction batches generalizing session last with
  | nil =>
      have hzero : last = 0 := Nat.le_zero.mp hquit
      rw [hzero]
      rfl
  | cons events rest ih =>
      rw [quitRound_cons] at hquit hends
      have hfirst := roundFrame_zero hmachine traced events rest
      have hrest := whole_round hmachine traced events
      by_cases hquits : events.any Event.quits
      · rw [if_pos hquits] at hquit
        rw [rounds_cons_of_quits hquits, Nat.le_zero.mp hquit]
        rfl
      · rw [if_neg hquits] at hquit hends
        cases hresult : (session.frameOf traced events).result with
        | error fault =>
            have hzero : last = 0 := by
              by_contra hpos
              obtain ⟨dirty, hok⟩ := hbefore 0 (Nat.pos_of_ne_zero hpos)
              rw [hfirst, hresult] at hok
              cases hok
            rw [rounds_cons_of_error hresult, hzero]
            rfl
        | ok dirty =>
            cases last with
            | zero =>
                rcases hends with hend | ⟨fault, herror⟩
                · exact absurd hend (Nat.succ_ne_zero _).symm
                · rw [hfirst, hresult] at herror
                  cases herror
            | succ last =>
                rw [rounds_cons_of_ok hquits hresult, List.length_cons]
                refine congrArg (· + 1) (ih hrest (Nat.le_of_succ_le_succ hquit) ?_ ?_)
                · intro k hk
                  rw [← roundFrame_cons hmachine]
                  exact hbefore (k + 1) (Nat.succ_lt_succ hk)
                · rw [← roundFrame_cons hmachine]
                  exact hends.imp_left Nat.succ.inj

theorem state_roundFrame (machine : Machine) (traced : Bool) (cycles : Int)
    (batches : List (List Event)) (k : Nat) :
    (roundFrame machine traced cycles batches k).state
      = machine.after traced (script cycles batches (k + 1)) := by
  rw [script_succ, roundCommands, ← List.append_assoc, Machine.after_append]
  exact (Machine.state_perform_frame cycles).symm

/-- Of the first rounds either all frames succeed, or one is the first that fails. -/
theorem frames_succeed_or_fail (machine : Machine) (traced : Bool) (cycles : Int)
    (batches : List (List Event)) (count : Nat) :
    (∀ k < count, ∃ dirty, (roundFrame machine traced cycles batches k).result = .ok dirty) ∨
      ∃ k < count, ∃ fault,
        (∀ j < k, ∃ dirty, (roundFrame machine traced cycles batches j).result = .ok dirty) ∧
          (roundFrame machine traced cycles batches k).result = .error fault := by
  induction count with
  | zero => exact .inl fun k hk => absurd hk (Nat.not_lt_zero k)
  | succ count ih =>
      rcases ih with hok | ⟨k, hk, hfirst⟩
      · cases hresult : (roundFrame machine traced cycles batches count).result with
        | error fault => exact .inr ⟨count, Nat.lt_succ_self count, fault, hok, hresult⟩
        | ok dirty =>
            left
            intro k hk
            rcases Nat.lt_succ_iff_lt_or_eq.mp hk with hlt | rfl
            · exact hok k hlt
            · exact ⟨dirty, hresult⟩
      · exact .inr ⟨k, Nat.lt_succ_of_lt hk, hfirst⟩

/-- Where the rounds end, and what the last of them comes to. -/
theorem last_round (hmachine : session.machine.Whole) {last : Nat}
    (hlength : (session.rounds traced batches).length = last + 1) :
    (session.rounds traced batches).getLast?
        = some ((session.start traced batches last).round traced (eventsOf batches last)) ∧
      (session.after (session.rounds traced batches)).machine
        = (roundFrame session.machine traced session.cyclesPerFrame batches last).state := by
  have hlast : last < (session.rounds traced batches).length := by omega
  constructor
  · rw [List.getLast?_eq_getElem?, hlength, Nat.add_sub_cancel, List.getElem?_eq_getElem hlast,
      getElem_rounds hlast]
  · have hend : session.after (session.rounds traced batches)
        = session.start traced batches (last + 1) := by
      rw [start, ← hlength, List.take_length]
    rw [hend, (start_of_le hmachine (Nat.succ_le_of_lt hlast)).2, state_roundFrame]

theorem endingOf_of_getLast? {rounds : List Round} {round : Round}
    (hlast : rounds.getLast? = some round) :
    Run.endingOf rounds =
      match round.fault with
      | some fault => .crashed fault round.session.machine
      | none => .completed := by
  obtain ⟨session, effects, notes, fault⟩ := round
  rw [Run.endingOf, hlast]
  cases fault <;> rfl

/-! ### Counting the rounds -/

theorem countP_isFrame_of_sounds {effects : List Effect}
    (hsounds : ∀ effect ∈ effects, effect.sounds) : effects.countP Effect.isFrame = 0 := by
  refine List.countP_eq_zero.mpr fun effect heffect => ?_
  have hsound := hsounds effect heffect
  cases effect with
  | frame fps => cases hsound
  | _ => simp [Effect.isFrame]

theorem countP_isFrame_round (session : Session) (traced : Bool) (events : List Event) :
    (session.round traced events).effects.countP Effect.isFrame = 1 := by
  cases hresult : (session.frameOf traced events).result with
  | ok dirty =>
      rw [round_of_ok hresult, List.countP_cons_of_pos rfl, List.countP_append,
        countP_isFrame_of_sounds (Buzzer.sounds_update _ _)]
      cases dirty <;> rfl
  | error fault =>
      rw [round_of_error hresult]
      rfl

theorem countP_isFrame_rounds :
    ((session.rounds traced batches).flatMap Round.effects).countP Effect.isFrame
      = (session.rounds traced batches).length := by
  have hround : ∀ round ∈ session.rounds traced batches,
      (List.countP Effect.isFrame ∘ Round.effects) round = 1 := by
    intro round hround
    obtain ⟨k, hk, rfl⟩ := List.mem_iff_getElem.mp hround
    rw [getElem_rounds hk]
    exact countP_isFrame_round _ traced _
  rw [List.countP_flatMap, List.map_congr_left hround, List.map_const',
    List.sum_replicate_nat, Nat.mul_one]

end Session

/-! ### Whole runs -/

def Run.frames (run : Run) : Nat :=
  run.effects.countP Effect.isFrame

open Session in
/-- A run carries out the rounds of a machine up to the one in which the user quits, or up to the
first whose frame fails because one of its cycles does, and ends with what that has come to. -/
structure Run.Drives (run : Run) (machine : Machine) (traced : Bool) (cycles : Int)
    (batches : List (List Event)) : Prop where
  completes :
    (∀ k ≤ quitRound batches, ∃ dirty,
      (roundFrame machine traced cycles batches k).result = .ok dirty) →
    run.ending = .completed ∧ run.frames = quitRound batches + 1 ∧
      run.machine = some (machine.after traced (script cycles batches (quitRound batches + 1)))
  crashes : ∀ k ≤ quitRound batches, ∀ fault,
    (∀ j < k, ∃ dirty, (roundFrame machine traced cycles batches j).result = .ok dirty) →
    (roundFrame machine traced cycles batches k).result = .error fault →
    let left := (roundFrame machine traced cycles batches k).state
    run.ending = .crashed fault left ∧ run.frames = k + 1 ∧ run.machine = some left ∧
      ∃ text before between, run.ending.message? = some text ∧
        text = before ++ fault.message ++ between ++ left.report

namespace Opening

variable {options : CommandLine.Options} {surroundings : Surroundings}

theorem Opens.machine_eq {file : String} {machine : Machine} {opening : Opening}
    (hopens : Opens options surroundings file machine opening) :
    opening.session.machine = machine := by
  cases hopens
  rfl

theorem Opens.countP_effects {file : String} {machine : Machine} {opening : Opening}
    (hopens : Opens options surroundings file machine opening) :
    opening.effects.countP Effect.isFrame = 0 := by
  cases hopens with
  | intro lines hscale hscreen hvolume hfault hpace hcycles =>
      rw [List.countP_append, List.countP_append,
        Session.countP_isFrame_of_sounds (Buzzer.sounds_setUp _ _ _ _)]
      rfl

theorem drives_ofOpening (surroundings : Surroundings) {opening : Opening}
    (hmachine : opening.session.machine.Whole)
    (heffects : opening.effects.countP Effect.isFrame = 0) :
    (Run.ofOpening opening surroundings).Drives opening.session.machine surroundings.traced
      opening.session.cyclesPerFrame surroundings.batches := by
  have hframes : (Run.ofOpening opening surroundings).frames
      = (opening.session.rounds surroundings.traced surroundings.batches).length := by
    rw [Run.frames, Run.ofOpening, List.countP_append, List.countP_append, heffects,
      Session.countP_isFrame_rounds]
    simp [Effect.isFrame]
  constructor
  · intro hok
    have hlength := Session.length_rounds hmachine (Nat.le_refl _)
      (fun k hk => hok k (Nat.le_of_lt hk)) (.inl rfl)
    obtain ⟨hlast, hleft⟩ := Session.last_round hmachine hlength
    obtain ⟨dirty, hresult⟩ := hok _ (Nat.le_refl _)
    rw [← Session.frameOf_start hmachine (by omega)] at hresult
    refine ⟨?_, hframes.trans hlength, ?_⟩
    · rw [Run.ofOpening, Session.endingOf_of_getLast? hlast, Session.fault_round_of_ok hresult]
    · rw [Run.ofOpening, hleft, Session.state_roundFrame]
  · intro k hk fault hbefore hfault left
    have hlength := Session.length_rounds hmachine hk hbefore (.inr ⟨fault, hfault⟩)
    obtain ⟨hlast, hleft⟩ := Session.last_round hmachine hlength
    have hk' : k ≤ (opening.session.rounds surroundings.traced surroundings.batches).length := by
      omega
    have hframe := Session.frameOf_start hmachine hk'
    have hending : (Run.ofOpening opening surroundings).ending = .crashed fault left := by
      rw [← hframe] at hfault
      rw [Run.ofOpening, Session.endingOf_of_getLast? hlast, Session.round_of_error hfault, hframe]
    refine ⟨hending, hframes.trans hlength, ?_, ?_⟩
    · rw [Run.ofOpening, hleft]
    · refine ⟨_, "********** THE EMULATOR CRASHED (", ") WITH THE FOLLOWING STATE\n", ?_, rfl⟩
      rw [hending]
      rfl

end Opening

theorem Run.Drives.ending_cases {run : Run} {machine : Machine} {traced : Bool} {cycles : Int}
    {batches : List (List Event)} (hdrives : run.Drives machine traced cycles batches) :
    run.ending = .completed ∨ ∃ fault left, run.ending = .crashed fault left := by
  rcases Session.frames_succeed_or_fail machine traced cycles batches
    (Session.quitRound batches + 1) with hok | ⟨k, hk, fault, hbefore, hfault⟩
  · exact .inl (hdrives.completes fun k hk => hok k (Nat.lt_succ_of_le hk)).1
  · exact .inr ⟨fault, _, (hdrives.crashes k (Nat.le_of_lt_succ hk) fault hbefore hfault).1⟩

theorem Run.not_drives {run : Run} {ending : Ending} {machine : Machine} {traced : Bool}
    {cycles : Int} {batches : List (List Event)} (hending : run.ending = ending)
    (hcompleted : ending ≠ .completed) (hcrashed : ∀ fault left, ending ≠ .crashed fault left) :
    ¬run.Drives machine traced cycles batches := by
  intro hdrives
  rcases hdrives.ending_cases with hcompletes | ⟨fault, left, hcrashes⟩
  · exact hcompleted (hending.symm.trans hcompletes)
  · exact hcrashed fault left (hending.symm.trans hcrashes)

/-- A command line that sets a scale makes a run that drives the machine of a loaded program, unless
one of the hindrances keeps it from its first frame. -/
theorem run_drives_machine {arguments : List String} (surroundings : Surroundings)
    {options : CommandLine.Options} {scale : Int}
    (hparse : CommandLine.parse arguments = .ok options) (hscale : options.scale = some scale) :
    let run := Run.ofArguments arguments surroundings
    Run.Hindered options surroundings run.ending ∨
      ∃ file program cycles, options.file = some file ∧ surroundings.read file = .ok program ∧
        (Memory.load program surroundings.traced .initial).result = .ok () ∧
        options.cycles = some cycles ∧
        run.Drives
          ((Machine.powerOn defaultStackCapacity surroundings.random).after surroundings.traced
            [.load program])
          surroundings.traced cycles surroundings.batches := by
  intro run
  have hopens := Opening.opens_ofArguments? surroundings hparse hscale
  cases hopening : Opening.ofArguments? arguments surroundings with
  | error hindered =>
      have hrun : run = hindered := by simp only [run, Run.ofArguments, hopening]
      rw [hopening] at hopens
      rw [hrun]
      exact .inl hopens
  | ok opening =>
      have hrun : run = .ofOpening opening surroundings := by
        simp only [run, Run.ofArguments, hopening]
      rw [hopening] at hopens
      obtain ⟨file, program, hfile, hread, hload, hopens⟩ := hopens
      have hmachine : opening.session.machine.Whole := by
        rw [hopens.machine_eq]
        exact Machine.keepsWhole_load program surroundings.traced _
          (Machine.whole_powerOn defaultStackCapacity surroundings.random)
      have hdrives := Opening.drives_ofOpening surroundings hmachine hopens.countP_effects
      rw [hrun]
      cases hopens with
      | intro lines hscale' hscreen hvolume hfault hpace hcycles =>
          refine .inr ⟨file, program, _, hfile, hread, hload, hcycles, ?_⟩
          rw [Machine.after, Machine.after, Machine.state_perform_load]
          exact hdrives

/-- A program that returns from no call, while the first batch of events quits in its midst. -/
theorem run_drives_machine_crashing :
    let arguments := ["-f", "return.ch8", "-s", "2"]
    let events := [.keyDown 113, .quit, .keyDown 49]
    let surroundings : Surroundings :=
      { read := fun _ => .ok [0x00, 0xEE]
        room := .ample
        windows := .boundless
        mixer := ⟨none, fun _ => .error "no sound"⟩
        clock := .doubles
        random := .cycling #[]
        batches := [events, []]
        traced := false }
    let run := Run.ofArguments arguments surroundings
    let start := (Machine.powerOn 16 (.cycling #[])).after false [.load [0x00, 0xEE]]
    run.Drives start false 10 [events, []] ∧
      ∃ left, run.ending = .crashed .stackUnderflow left ∧ run.frames = 1 := by
  intro arguments events surroundings run start
  let options : CommandLine.Options :=
    { file := some "return.ch8"
      cycles := some defaultCyclesPerFrame
      fps := some defaultFramesPerSecond
      scale := some 2
      mute := false
      volume := some defaultVolume }
  have hparse : CommandLine.parse arguments = .ok options := rfl
  have hscale : options.scale = some 2 := rfl
  have hdrives : run.Drives start false 10 [events, []] := by
    have hfree : ∀ ending, ¬Run.Hindered options surroundings ending := by
      intro ending hhindered
      cases hhindered with
      | noFile hfile => cases hfile
      | unreadable hfile hread => cases hread
      | refused hfile hread hload =>
          cases hread
          cases hload
      | noWindow hscale' hopened =>
          cases hscale'
          cases hopened
      | noVolume hvolume => cases hvolume
      | noSound hvolume hfault =>
          cases hvolume
          cases hfault
      | unpaced hpace => cases hpace
      | noCycles hcycles => cases hcycles
    rcases run_drives_machine surroundings hparse hscale with hhindered | hdriven
    · exact absurd hhindered (hfree _)
    · obtain ⟨file, program, cycles, hfile, hread, -, hcycles, hdrives⟩ := hdriven
      cases hread
      cases hcycles
      exact hdrives
  refine ⟨hdrives, ?_⟩
  have hfault : (Session.roundFrame start false 10 [events, []] 0).result
      = .error .stackUnderflow := by
    let begun := start.after false [.press 4, .press 1]
    have hmemory : begun.memory = Memory.initial.install #[0x00, 0xEE] := rfl
    have hpc : begun.pc = programStart := rfl
    have hawaiting : begun.awaiting = none := rfl
    have hdepth : begun.fetched.stack.depth = 0 := rfl
    have hnext : begun.next? = some (.decode 0x00EE) :=
      Machine.next?_of_install Memory.whole_initial hmemory hpc hawaiting (by decide) rfl rfl
    have hcycle : (Machine.cycle false begun).result = .error .stackUnderflow := by
      have hop : (Instruction.decode 0x00EE).operation = .returnFromCall := rfl
      have hpop : (Machine.onStack CallStack.pop false begun.fetched).result
          = .error .stackUnderflow := by
        rw [Machine.onStack, Step.on_apply, CallStack.pop_of_empty hdepth]
      have hwhole : begun.memory.Whole := by
        rw [hmemory]
        exact Memory.whole_install Memory.whole_initial (by decide)
      rw [(Machine.cycle_of_next? hwhole false hnext).2, Machine.execute, Step.bind_of_ok rfl]
      simp only [Step.get_apply, hop]
      rw [Step.bind_of_error hpop]
    have hcycles : (Machine.cycles (10 : Int).toNat false begun).result
        = .error .stackUnderflow := by
      rw [show (10 : Int).toNat = 9 + 1 from rfl, Machine.cycles, Step.bind_of_error hcycle]
    exact (Machine.frame_of_error hcycles).2
  obtain ⟨hending, hframes, -⟩ := hdrives.crashes 0 (Nat.zero_le _) _ (by simp) hfault
  exact ⟨_, hending, hframes⟩

/-- A scale for which there is no window, a volume or a rate that is left blank, and a sound device
whose wave is too long: each keeps a run from driving the machine. -/
theorem hindered_runs_do_not_drive :
    let plain := ["-f", "loop.ch8"]
    let largeWindow := plain ++ ["-s", "144115188075855871"]
    let blankVolume := plain ++ ["--volume=--"]
    let blankRate := plain ++ ["--fps=--"]
    let silent : Surroundings :=
      { read := fun _ => .ok [0x12, 0x00]
        room := .below (1 <<< 47)
        windows := .narrow
        mixer := ⟨none, fun _ => .error "no sound"⟩
        clock := .doubles
        random := .cycling #[]
        batches := []
        traced := false }
    let rapid : Surroundings := { silent with mixer := ⟨some ⟨1 <<< 60, -16, 1⟩, .ok⟩ }
    let start := (Machine.powerOn 16 (.cycling #[])).after false [.load [0x12, 0x00]]
    ∀ run ∈ [(largeWindow, silent), (blankVolume, silent), (blankRate, silent), (plain, rapid)],
      (∃ options scale, CommandLine.parse run.1 = .ok options ∧ options.scale = some scale ∧
        1 ≤ scale) ∧
      ¬(Run.ofArguments run.1 run.2).Drives start false 10 [] := by
  intro plain largeWindow blankVolume blankRate silent rapid start
  have hwindow : (Run.ofArguments largeWindow silent).ending = .noWindow "invalid size" := rfl
  have hvolume : (Run.ofArguments blankVolume silent).ending = .unset .volume := rfl
  have hrate : (Run.ofArguments blankRate silent).ending = .unpaced := rfl
  have hsound : (Run.ofArguments plain rapid).ending = .noSound .noRoom := rfl
  intro run hrun
  simp only [List.mem_cons, List.not_mem_nil, or_false] at hrun
  rcases hrun with rfl | rfl | rfl | rfl
  · exact ⟨⟨_, 144115188075855871, rfl, rfl, by decide⟩, Run.not_drives hwindow (by simp) (by simp)⟩
  · exact ⟨⟨_, 10, rfl, rfl, by decide⟩, Run.not_drives hvolume (by simp) (by simp)⟩
  · exact ⟨⟨_, 10, rfl, rfl, by decide⟩, Run.not_drives hrate (by simp) (by simp)⟩
  · exact ⟨⟨_, 10, rfl, rfl, by decide⟩, Run.not_drives hsound (by simp) (by simp)⟩

end ChipEight
