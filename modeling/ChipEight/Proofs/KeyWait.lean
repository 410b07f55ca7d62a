import ChipEight.Proofs.Footprint

/-!
Waiting for a key. While no key is down the cycles of a machine that waits change nothing, so a run
that waits comes to the same as a run without its polling cycles, in which the instruction finds the
key at once.
-/

namespace ChipEight

/-- The single actions of a command: a frame is its cycles, a tick and the taking of the flag. -/
def Command.actions : Command → List Command
  | .frame count => List.replicate count.toNat .cycle ++ [.tick, .takeDirty]
  | command => [command]

/-- Whether a command is a single action beside the cycles. -/
def Command.attends : Command → Bool
  | .tick | .takeDirty | .press _ | .release _ => true
  | _ => false

theorem Command.attends_of_mem_actions {command action : Command} (hkeeps : command.keepsProgram)
    (hmem : action ∈ command.actions) : action = .cycle ∨ action.attends := by
  cases command with
  | load program => cases hkeeps
  | reset => cases hkeeps
  | frame count =>
      rcases List.mem_append.mp hmem with hcycle | hend
      · exact .inl (List.eq_of_mem_replicate hcycle)
      · simp only [List.mem_cons, List.not_mem_nil, or_false] at hend
        rcases hend with rfl | rfl
        · exact .inr rfl
        · exact .inr rfl
  | cycle => exact .inl (List.mem_singleton.mp hmem)
  | tick => exact .inr (List.mem_singleton.mp hmem ▸ rfl)
  | press key => exact .inr (List.mem_singleton.mp hmem ▸ rfl)
  | release key => exact .inr (List.mem_singleton.mp hmem ▸ rfl)
  | takeDirty => exact .inr (List.mem_singleton.mp hmem ▸ rfl)

def Command.onKeypad (keypad : Keypad) : Command → Keypad
  | .press key => keypad.moved key true
  | .release key => keypad.moved key false
  | _ => keypad

namespace Machine

variable {machine : Machine} {traced : Bool} {x : Fin 16}

/-! ### Commands and their single actions -/

theorem after_replicate_cycle (count : Nat)
    (hresults : ∀ start ∈ machine.starts traced (List.replicate count .cycle),
      (cycle traced start).result = .ok ()) :
    (cycles count traced machine).result = .ok () ∧
      machine.after traced (List.replicate count .cycle)
        = (cycles count traced machine).state := by
  induction count generalizing machine with
  | zero => exact ⟨rfl, rfl⟩
  | succ count ih =>
      rw [List.replicate_succ] at hresults ⊢
      have hfirst : (cycle traced machine).result = .ok () :=
        hresults machine (by simp [starts, startsOf])
      rw [cycles, Step.bind_of_ok hfirst, after, state_perform_cycle]
      refine ih fun start hstart => hresults start ?_
      rw [starts, state_perform_cycle]
      exact List.mem_append_right _ hstart

/-- If all its cycles succeed, a command comes to the same as its actions one by one. -/
theorem after_actions (command : Command)
    (hresults : ∀ start ∈ machine.starts traced command.actions,
      (cycle traced start).result = .ok ()) :
    machine.after traced command.actions = (perform command traced machine).state := by
  cases command with
  | frame count =>
      rw [Command.actions, starts_append] at hresults
      obtain ⟨hresult, hafter⟩ := after_replicate_cycle count.toNat fun start hstart =>
        hresults start (List.mem_append_left _ hstart)
      rw [Command.actions, after_append, hafter, state_perform_frame, (frame_of_ok hresult).1]
      rfl
  | _ => rfl

theorem after_flatMap_actions (commands : List Command)
    (hresults : ∀ start ∈ machine.starts traced (commands.flatMap Command.actions),
      (cycle traced start).result = .ok ()) :
    machine.after traced (commands.flatMap Command.actions) = machine.after traced commands := by
  induction commands generalizing machine with
  | nil => rfl
  | cons command rest ih =>
      rw [List.flatMap_cons, starts_append] at hresults
      have hfirst := after_actions command fun start hstart =>
        hresults start (List.mem_append_left _ hstart)
      rw [List.flatMap_cons, after_append, after, ← hfirst]
      exact ih fun start hstart => hresults start (List.mem_append_right _ hstart)

/-! ### Waiting -/

/-- What ticks, keys and takings of the flag make of a machine; other actions count for nothing. -/
def attended (machine : Machine) (actions : List Command) : Machine :=
  { machine with
    keypad := actions.foldl Command.onKeypad machine.keypad
    timers := Timers.tick^[actions.count .tick] machine.timers
    display :=
      { machine.display with
        dirty := if .takeDirty ∈ actions then false else machine.display.dirty } }

theorem keypad_attended (machine : Machine) (actions : List Command) :
    (machine.attended actions).keypad = actions.foldl Command.onKeypad machine.keypad := rfl

theorem attended_nil (machine : Machine) : machine.attended [] = machine := by
  simp [attended]

theorem attended_cons (machine : Machine) (action : Command) (rest : List Command) :
    machine.attended (action :: rest) = (machine.attended [action]).attended rest := by
  cases action <;> simp [attended]

theorem attended_cycle (machine : Machine) : machine.attended [.cycle] = machine := by
  simp [attended, Command.onKeypad]

theorem attended_filter (machine : Machine) (actions : List Command) :
    machine.attended (actions.filter (· ≠ .cycle)) = machine.attended actions := by
  induction actions generalizing machine with
  | nil => rfl
  | cons action rest ih =>
      by_cases hcycle : action = .cycle
      · subst hcycle
        rw [List.filter_cons_of_neg (by simp), ih, attended_cons machine .cycle, attended_cycle]
      · rw [List.filter_cons_of_pos (by simpa using hcycle), attended_cons, ih, ← attended_cons]

theorem state_perform_of_attends (hkeypad : machine.keypad.Whole) {action : Command}
    (hattends : action.attends) :
    (perform action traced machine).state = machine.attended [action] := by
  cases action with
  | tick | takeDirty =>
      simp [attended]
      rfl
  | press key =>
      rw [state_perform_press, onKeypad, Step.on_apply, Keypad.press_eq hkeypad]
      simp [attended, Command.onKeypad]
  | release key =>
      rw [state_perform_release, onKeypad, Step.on_apply, Keypad.release_eq hkeypad]
      simp [attended, Command.onKeypad]
  | load program | cycle | frame count | reset => cases hattends

theorem whole_attended_of_attends (hmachine : machine.Whole) {action : Command}
    (hattends : action.attends) : (machine.attended [action]).Whole := by
  have hstate : (perform action false machine).state = machine.attended [action] :=
    state_perform_of_attends hmachine.keypad hattends
  rw [← hstate]
  exact keepsWhole_perform action false machine hmachine

theorem startsOf_of_attends {action : Command} (hattends : action.attends) :
    machine.startsOf traced action = [] := by
  cases action <;> simp [Command.attends, startsOf] at hattends ⊢

theorem after_of_attends (hmachine : machine.Whole) {actions : List Command}
    (hactions : ∀ action ∈ actions, action.attends) :
    machine.after traced actions = machine.attended actions := by
  induction actions generalizing machine with
  | nil => exact (attended_nil machine).symm
  | cons action rest ih =>
      have hattends := hactions action List.mem_cons_self
      rw [after, state_perform_of_attends hmachine.keypad hattends,
        attended_cons machine action rest]
      exact ih (whole_attended_of_attends hmachine hattends) fun later hlater =>
        hactions later (List.mem_cons_of_mem action hlater)

theorem starts_of_attends {actions : List Command}
    (hactions : ∀ action ∈ actions, action.attends) : machine.starts traced actions = [] := by
  induction actions generalizing machine with
  | nil => rfl
  | cons action rest ih =>
      rw [starts, startsOf_of_attends (hactions action List.mem_cons_self), List.nil_append]
      exact ih fun later hlater => hactions later (List.mem_cons_of_mem action hlater)

/-- While no key is down, the cycles of a machine that waits drop out of its run. -/
theorem after_of_awaiting (hmachine : machine.Whole) {actions : List Command}
    (hawaiting : machine.awaiting = some (x.val : Int))
    (hactions : ∀ action ∈ actions, action = .cycle ∨ action.attends)
    (hpolls : ∀ start ∈ machine.starts traced actions, start.keypad.AllUp) :
    machine.after traced actions = machine.attended actions ∧
      ∀ start ∈ machine.starts traced actions,
        start.Whole ∧ start.awaiting = some (x.val : Int) := by
  induction actions generalizing machine with
  | nil => exact ⟨(attended_nil machine).symm, by simp [starts]⟩
  | cons action rest ih =>
      have hrest : ∀ later ∈ rest, later = .cycle ∨ later.attends :=
        fun later hlater => hactions later (List.mem_cons_of_mem action hlater)
      rw [starts] at hpolls ⊢
      rw [after, attended_cons]
      -- A cycle finds no key and changes nothing; anything else leaves the machine waiting.
      rcases hactions action List.mem_cons_self with rfl | hattends
      · have hup : machine.keypad.AllUp := hpolls machine (by simp [startsOf])
        have hstays : (cycle traced machine).state = machine := by
          rw [cycle_of_awaiting traced hawaiting,
            resume_of_none hmachine.keypad x traced (Keypad.lowest_eq_none_iff.mpr hup)]
        rw [state_perform_cycle, hstays] at hpolls ⊢
        rw [attended_cycle]
        obtain ⟨hafter, hstarts⟩ := ih hmachine hawaiting hrest fun start hstart =>
          hpolls start (List.mem_append_right _ hstart)
        refine ⟨hafter, fun start hstart => ?_⟩
        rcases List.mem_append.mp hstart with hfirst | hlater
        · rw [List.mem_singleton.mp hfirst]
          exact ⟨hmachine, hawaiting⟩
        · exact hstarts start hlater
      · rw [state_perform_of_attends hmachine.keypad hattends, startsOf_of_attends hattends]
          at hpolls ⊢
        exact ih (whole_attended_of_attends hmachine hattends) hawaiting hrest hpolls

/-! ### The instruction that waits -/

theorem keypad_not_mem_writes (machine : Machine) : .keypad ∉ machine.writes := by
  cases hnext : machine.next? with
  | some i =>
      rw [writes_of_next? hnext, Instruction.writes]
      cases i.operation <;> simp [-List.map_take]
  | none =>
      obtain ⟨register, hawaiting⟩ := awaiting_of_next?_eq_none hnext
      simp [writes, hawaiting]

theorem keypad_cycle (hmachine : machine.Whole) (traced : Bool) :
    (cycle traced machine).state.keypad = machine.keypad :=
  same_cycle hmachine traced (keypad_not_mem_writes machine)

variable {i : Instruction}

theorem execute_awaitKey (traced : Bool) (hop : i.operation = .awaitKey) :
    execute i traced machine = waitForKey i.x traced machine := by
  simp only [execute, Step.get_bind, hop]

theorem cycle_awaitKey_of_allUp (hmachine : machine.Whole) (traced : Bool)
    (hnext : machine.next? = some i) (hop : i.operation = .awaitKey) (hup : machine.keypad.AllUp) :
    (cycle traced machine).state = { machine.fetched with awaiting := some i.x.val } ∧
      (cycle traced machine).result = .ok () := by
  obtain ⟨hstate, hresult⟩ := cycle_of_next? hmachine.memory traced hnext
  have hnone : machine.fetched.keypad.lowest = none := Keypad.lowest_eq_none_iff.mpr hup
  rw [hstate, hresult, execute_awaitKey traced hop,
    waitForKey_of_none i.x traced (whole_fetched hmachine) hnone]
  exact ⟨rfl, rfl⟩

/-- A machine that has got the key for a register. -/
def keyed (machine : Machine) (x key : Fin 16) : Machine :=
  { machine with registers := machine.registers.written x key.val, awaiting := none }

theorem cycle_of_lowest {key : Fin 16} (hmachine : machine.Whole) (traced : Bool)
    (hawaiting : machine.awaiting = some (x.val : Int)) (hkey : machine.keypad.lowest = some key) :
    (cycle traced machine).state = machine.keyed x key := by
  rw [cycle_of_awaiting traced hawaiting, resume_of_some hmachine x traced hkey]
  rfl

theorem result_of_awaiting (hmachine : machine.Whole) (traced : Bool)
    (hawaiting : machine.awaiting = some (x.val : Int)) :
    (cycle traced machine).result = .ok () := by
  rw [cycle_of_awaiting traced hawaiting]
  cases hkey : machine.keypad.lowest with
  | none => rw [resume_of_none hmachine.keypad x traced hkey]
  | some key => rw [resume_of_some hmachine x traced hkey]

theorem cycle_awaitKey_of_lowest {key : Fin 16} (hmachine : machine.Whole) (traced : Bool)
    (hnext : machine.next? = some i) (hop : i.operation = .awaitKey)
    (hkey : machine.keypad.lowest = some key) :
    (cycle traced machine).state = machine.fetched.keyed i.x key := by
  have hsome : machine.fetched.keypad.lowest = some key := hkey
  have hwait := waitForKey_of_some i.x traced (whole_fetched hmachine) hsome
  rw [(cycle_of_next? hmachine.memory traced hnext).1, execute_awaitKey traced hop, hwait, keyed]
  simp only [fetched, awaiting_of_next? hnext]

/-- A run of single actions begins with an instruction that finds no key, and its last cycle is the
first that does: from then on the machine is as if the instruction had been executed in that cycle.
-/
theorem after_awaitKey {start : Machine} (hstart : start.Whole) {waiting : List Command}
    (hnext : start.next? = some i) (hop : i.operation = .awaitKey)
    (hwaiting : ∀ action ∈ waiting, action = .cycle ∨ action.attends)
    (hpolls : ∀ machine ∈ start.starts traced (.cycle :: waiting), machine.keypad.AllUp) {key}
    (hkey : (start.after traced (.cycle :: waiting)).keypad.lowest = some key) :
    let resumed := start.after traced (.cycle :: (waiting ++ [.cycle]))
    (∀ done, done <+: waiting →
      start.after traced (.cycle :: done) = (cycle traced start).state.attended done) ∧
    resumed = (start.attended waiting).fetched.keyed i.x key ∧
    resumed = start.after traced (waiting.filter (· ≠ .cycle) ++ [.cycle]) := by
  intro resumed
  have hup : start.keypad.AllUp := hpolls start (by simp [starts, startsOf])
  obtain ⟨hfirst, -⟩ := cycle_awaitKey_of_allUp hstart traced hnext hop hup
  have hsuspended : (cycle traced start).state.awaiting = some (i.x.val : Int) := by rw [hfirst]
  have hpolled : (cycle traced start).state.Whole := keepsWhole_cycle traced start hstart
  have hattended : ∀ done, done <+: waiting →
      start.after traced (.cycle :: done) = (cycle traced start).state.attended done := by
    rintro done ⟨rest, rfl⟩
    rw [starts, starts_append, state_perform_cycle] at hpolls
    rw [after, state_perform_cycle]
    refine (after_of_awaiting hpolled hsuspended ?_ ?_).1
    · exact fun action haction => hwaiting action (List.mem_append_left rest haction)
    · intro machine hmachine
      exact hpolls machine (List.mem_append_right _ (List.mem_append_left _ hmachine))
  have hbefore := hattended waiting List.prefix_rfl
  rw [hbefore] at hkey
  have hresumed : resumed = (start.attended waiting).fetched.keyed i.x key := by
    have hlast : resumed = (cycle traced ((cycle traced start).state.attended waiting)).state := by
      rw [← hbefore, ← state_perform_cycle]
      exact after_append start traced (.cycle :: waiting) [.cycle]
    have hwaits : ((cycle traced start).state.attended waiting).awaiting = some (i.x.val : Int) :=
      hsuspended
    have hready : ((cycle traced start).state.attended waiting).Whole := by
      rw [← hbefore]
      exact hstart.after traced _
    rw [hlast, cycle_of_lowest hready traced hwaits hkey, hfirst]
    rfl
  refine ⟨hattended, hresumed, ?_⟩
  have hothers : start.after traced (waiting.filter (· ≠ .cycle)) = start.attended waiting := by
    rw [← attended_filter]
    refine after_of_attends hstart fun action haction => ?_
    obtain ⟨hmem, hne⟩ := List.mem_filter.mp haction
    exact (hwaiting action hmem).resolve_left (by simpa using hne)
  have hnext' : (start.attended waiting).next? = some i := hnext
  have hkey' : (start.attended waiting).keypad.lowest = some key := by
    rw [hfirst] at hkey
    exact hkey
  have hothers' : (start.attended waiting).Whole := hothers ▸ hstart.after traced _
  rw [hresumed, after_append, hothers, after, after, state_perform_cycle,
    cycle_awaitKey_of_lowest hothers' traced hnext' hop hkey']

/-- No cycle fails while a machine waits, nor when it gets its key. -/
theorem results_awaitKey {start : Machine} (hstart : start.Whole) {waiting behind : List Command}
    (hnext : start.next? = some i) (hop : i.operation = .awaitKey)
    (hactions : ∀ action ∈ waiting, action = .cycle ∨ action.attends)
    (hbehind : ∀ action ∈ behind, action.attends)
    (hpolls : ∀ machine ∈ start.starts traced (.cycle :: waiting), machine.keypad.AllUp) :
    ∀ machine ∈ start.starts traced (.cycle :: (waiting ++ .cycle :: behind)),
      (cycle traced machine).result = .ok () := by
  have hpolled : (cycle traced start).state.Whole := keepsWhole_cycle traced start hstart
  have hup : start.keypad.AllUp := hpolls start (by simp [starts, startsOf])
  obtain ⟨hfirst, hresult⟩ := cycle_awaitKey_of_allUp hstart traced hnext hop hup
  have hsuspended : (cycle traced start).state.awaiting = some (i.x.val : Int) := by rw [hfirst]
  rw [starts, state_perform_cycle] at hpolls
  obtain ⟨hafter, hstarts⟩ := after_of_awaiting hpolled hsuspended hactions fun machine hmachine =>
    hpolls machine (List.mem_append_right _ hmachine)
  have hready : ((cycle traced start).state.attended waiting).Whole :=
    hafter ▸ hpolled.after traced waiting
  intro machine hmachine
  rw [starts, starts_append, state_perform_cycle, hafter, starts, starts_of_attends hbehind]
    at hmachine
  simp only [startsOf, List.mem_append, List.mem_singleton, List.append_nil] at hmachine
  rcases hmachine with rfl | hwaiting | rfl
  · exact hresult
  · obtain ⟨hwhole, hawaits⟩ := hstarts machine hwaiting
    exact result_of_awaiting hwhole traced hawaits
  · exact result_of_awaiting hready traced hsuspended

/-- From an instruction that finds no key, whatever ticks, keys and takings of the flag come in
between, until the last cycle everything else stays; and then the machine is as if the instruction
had been executed in that cycle. -/
theorem key_wait_resumes {start : Machine} {commands waiting behind : List Command}
    (hstart : start.Whole)
    (hnext : start.next? = some i) (hop : i.operation = .awaitKey)
    (hkeeps : ∀ command ∈ commands, command.keepsProgram)
    (hactions : commands.flatMap Command.actions = .cycle :: (waiting ++ .cycle :: behind))
    (hlast : .cycle ∉ behind)
    (hpolls : ∀ machine ∈ start.starts traced (.cycle :: waiting), machine.keypad.AllUp)
    (hdown : ¬(start.after traced (.cycle :: waiting)).keypad.AllUp) :
    let resumed := start.after traced (.cycle :: (waiting ++ [.cycle]))
    start.after traced commands = resumed.after traced behind ∧
      (∀ done, done <+: waiting →
        start.after traced (.cycle :: done) = (cycle traced start).state.attended done) ∧
      (∃ key, resumed.keypad.IsLowest key ∧ resumed.registers.get i.x = key.val) ∧
      resumed.awaiting = none ∧
      resumed = start.after traced (waiting.filter (· ≠ .cycle) ++ [.cycle]) := by
  intro resumed
  have hsingle : ∀ action ∈ commands.flatMap Command.actions,
      action = .cycle ∨ action.attends := by
    intro action haction
    obtain ⟨command, hcommand, hmem⟩ := List.mem_flatMap.mp haction
    exact Command.attends_of_mem_actions (hkeeps command hcommand) hmem
  rw [hactions] at hsingle
  have hwaiting : ∀ action ∈ waiting, action = .cycle ∨ action.attends :=
    fun action haction => hsingle action (by simp [haction])
  have hbehind : ∀ action ∈ behind, action.attends := by
    intro action haction
    refine (hsingle action (by simp [haction])).resolve_left ?_
    rintro rfl
    exact hlast haction
  obtain ⟨key, hkey⟩ : ∃ key, (start.after traced (.cycle :: waiting)).keypad.lowest = some key :=
    Option.ne_none_iff_exists'.mp fun hnone => hdown (Keypad.lowest_eq_none_iff.mp hnone)
  obtain ⟨hattended, hresumed, hdirect⟩ := after_awaitKey hstart hnext hop hwaiting hpolls hkey
  have hkeypad : resumed.keypad = (start.after traced (.cycle :: waiting)).keypad := by
    have hlast : resumed = (cycle traced (start.after traced (.cycle :: waiting))).state := by
      rw [← state_perform_cycle]
      exact after_append start traced (.cycle :: waiting) [.cycle]
    rw [hlast, keypad_cycle (hstart.after traced _)]
  refine ⟨?_, hattended, ⟨key, ?_, ?_⟩, congrArg awaiting hresumed, hdirect⟩
  · have hresults := results_awaitKey hstart hnext hop hwaiting hbehind hpolls
    rw [← hactions] at hresults
    rw [← after_flatMap_actions commands hresults, hactions, ← after_append]
    simp
  · rw [hkeypad]
    exact Keypad.isLowest_of_lowest hkey
  · have hbyte : IsByte key.val := isByte_natCast (by omega)
    have hregisters : (start.attended waiting).registers.Whole := hstart.registers
    rw [congrArg registers hresumed]
    exact_mod_cast Registers.get_written_self hregisters i.x hbyte

theorem key_wait_resumes_after_poll :
    let start := (powerOn 16 (.cycling #[])).after false [.load [0xF3, 0x0A]]
    let polled := start.after false [.cycle, .cycle, .tick, .takeDirty, .press 12, .press 9]
    let resumed := start.after false
      [.cycle, .cycle, .tick, .takeDirty, .press 12, .press 9, .cycle]
    start.Whole ∧ start.next? = some (.decode 0xF30A) ∧ start.keypad.AllUp ∧ ¬polled.keypad.AllUp ∧
      start.after false [.frame 2, .press 12, .press 9, .frame 1, .takeDirty]
        = resumed.after false [.tick, .takeDirty, .takeDirty] ∧
      (∃ key, resumed.keypad.IsLowest key ∧ resumed.registers.get 3 = key.val) ∧
      resumed = start.after false [.tick, .takeDirty, .press 12, .press 9, .cycle] := by
  intro start polled resumed
  have hstart : start.Whole := (whole_powerOn 16 (.cycling #[])).after false _
  have hreleased : start.keypad = .released := rfl
  have hmemory : start.memory = Memory.initial.install #[0xF3, 0x0A] := rfl
  have hpc : start.pc = programStart := rfl
  have hawaiting : start.awaiting = none := rfl
  -- From here on these facts stand for the machine; its memory is not to be unfolded.
  clear_value start
  have hnext : start.next? = some (.decode 0xF30A) :=
    next?_of_install Memory.whole_initial hmemory hpc hawaiting (by decide) rfl rfl
  have hup : start.keypad.AllUp := by
    rw [hreleased]
    decide
  have hpolls : ∀ machine ∈ start.starts false [.cycle, .cycle, .tick, .takeDirty, .press 12,
      .press 9], machine.keypad.AllUp := by
    intro machine hmachine
    simp only [starts, startsOf, List.mem_append, List.mem_singleton, List.not_mem_nil, or_false,
      state_perform_cycle] at hmachine
    rcases hmachine with rfl | rfl
    · exact hup
    · rw [keypad_cycle hstart]
      exact hup
  have hdown : ¬polled.keypad.AllUp := by
    have hafter : polled = (start.after false [.cycle, .cycle]).attended
        [.tick, .takeDirty, .press 12, .press 9] :=
      (after_append start false [.cycle, .cycle] [.tick, .takeDirty, .press 12, .press 9]).trans
        (after_of_attends (hstart.after false _) (by decide))
    have hstays : (start.after false [.cycle, .cycle]).keypad = .released := by
      rw [after, after, after, state_perform_cycle, state_perform_cycle,
        keypad_cycle (keepsWhole_cycle false start hstart), keypad_cycle hstart, hreleased]
    rw [hafter, keypad_attended, hstays]
    decide
  have hactions :
      [Command.frame 2, .press 12, .press 9, .frame 1, .takeDirty].flatMap Command.actions
        = .cycle :: ([.cycle, .tick, .takeDirty, .press 12, .press 9] ++ .cycle ::
          [.tick, .takeDirty, .takeDirty]) := rfl
  obtain ⟨hafter, -, hkey, -, hdirect⟩ :=
    key_wait_resumes hstart hnext rfl (by decide) hactions (by decide) hpolls hdown
  exact ⟨hstart, hnext, hup, hdown, hafter, hkey, hdirect⟩

end Machine

end ChipEight
