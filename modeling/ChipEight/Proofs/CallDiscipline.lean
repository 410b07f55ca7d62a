import ChipEight.Proofs.Safety

/-!
Calls and returns over whole runs. The live addresses change only with the calls and returns that
succeed, in the order in which they are executed, so a call that is closed is closed by the return
that comes back behind it, whatever was called in between.
-/

namespace ChipEight

inductive CallMove where
  | enter (address : Int)
  | leave
  | stay
  deriving DecidableEq

def CallMove.apply (live : List Int) : CallMove → List Int
  | enter address => live ++ [address]
  | leave => live.dropLast
  | stay => live

def CallMove.isEnter : CallMove → Bool
  | enter _ => true
  | _ => false

namespace Machine

/-- The next cycle executes `2NNN`. -/
def Calls (machine : Machine) : Prop :=
  machine.awaiting = none ∧ machine.nextOpcode / 0x1000 = 0x2

/-- The next cycle executes `00EE`. -/
def Returns (machine : Machine) : Prop :=
  machine.awaiting = none ∧ machine.nextOpcode = 0x00EE

instance : DecidablePred Calls := fun machine =>
  inferInstanceAs (Decidable (machine.awaiting = none ∧ machine.nextOpcode / 0x1000 = 0x2))

instance : DecidablePred Returns := fun machine =>
  inferInstanceAs (Decidable (machine.awaiting = none ∧ machine.nextOpcode = 0x00EE))

/-- The move of a cycle that came to a result. -/
def moveOf (machine : Machine) : Except Fault Unit → CallMove
  | .ok () =>
      if machine.Calls then .enter ((machine.pc + 2) % 0x10000)
      else if machine.Returns then .leave
      else .stay
  | .error _ => .stay

def callMove (machine : Machine) (traced : Bool) : CallMove :=
  machine.moveOf (cycle traced machine).result

variable {machine : Machine} {traced : Bool}

/-! ### One cycle -/

theorem calls_iff {i : Instruction} (hnext : machine.next? = some i) :
    machine.Calls ↔ i.operation = .call := by
  rw [operation_of_next? hnext, Operation.ofWord_eq_call_iff]
  simp [Calls, awaiting_of_next? hnext]

theorem returns_iff {i : Instruction} (hnext : machine.next? = some i) :
    machine.Returns ↔ i.operation = .returnFromCall := by
  rw [operation_of_next? hnext, Operation.ofWord_eq_returnFromCall_iff]
  simp [Returns, awaiting_of_next? hnext]

theorem moveOf_of_next?_eq_none (result : Except Fault Unit) (hnext : machine.next? = none) :
    machine.moveOf result = .stay := by
  obtain ⟨register, hawaiting⟩ := awaiting_of_next?_eq_none hnext
  cases result with
  | error fault => rfl
  | ok done => simp [moveOf, Calls, Returns, hawaiting]

theorem moveOf_of_not_mem {i : Instruction} (result : Except Fault Unit)
    (hnext : machine.next? = some i)
    (hop : i.operation ∉ [.clearScreen, .draw, .call, .returnFromCall]) :
    machine.moveOf result = .stay := by
  simp only [List.mem_cons, List.not_mem_nil, or_false, not_or] at hop
  cases result with
  | error fault => rfl
  | ok done => simp [moveOf, calls_iff hnext, returns_iff hnext, hop]

theorem Turn.moves {after : Machine} {result : Except Fault Unit}
    (h : Turn machine after result) (hmachine : machine.WellFormed) :
    after.stack.live = (machine.moveOf result).apply machine.stack.live ∧
      (machine.moveOf result = .leave → machine.stack.live = after.stack.live ++ [after.pc]) := by
  cases h with
  | poll hnext => simp [moveOf_of_next?_eq_none, hnext, CallMove.apply]
  | resume registers hnext hregisters => simp [moveOf_of_next?_eq_none, hnext, CallMove.apply]
  | execute i hnext hexecute =>
      have hcalls := calls_iff hnext
      have hreturns := returns_iff hnext
      cases hexecute with
      | compute registers pc index timers random hop hregisters hpc hindex htimers =>
          simp [moveOf_of_not_mem _ hnext hop, CallMove.apply, fetched]
      | store memory hop hmemory => simp [moveOf_of_not_mem _ hnext hop, CallMove.apply, fetched]
      | suspend hop => simp [moveOf, hcalls, hreturns, hop, CallMove.apply, fetched]
      | clear hop => simp [moveOf, hcalls, hreturns, hop, CallMove.apply, fetched]
      | draw registers cells hop hregisters hsize hbits =>
          simp [moveOf, hcalls, hreturns, hop, CallMove.apply, fetched]
      | call hop hroom =>
          have hroom : machine.stack.depth < machine.stack.capacity := hroom
          simp [moveOf, hcalls, hop, CallMove.apply, fetched, Bits.mask_wordMask,
            CallStack.live_pushed hmachine.stored hroom]
      | «return» latest hop hlive =>
          have hlive : machine.stack.live = machine.stack.popped.live ++ [latest] := hlive
          simp [moveOf, hcalls, hreturns, hop, CallMove.apply, fetched, hlive]
      | overflow hop hfull => simp [moveOf, CallMove.apply, fetched]
      | underflow hop hempty => simp [moveOf, CallMove.apply, fetched]

theorem live_cycle (traced : Bool) (hmachine : machine.WellFormed) :
    (cycle traced machine).state.stack.live
      = (machine.callMove traced).apply machine.stack.live :=
  ((cycle_turn traced hmachine).moves hmachine).1

theorem live_of_leave (hmachine : machine.WellFormed) (hleave : machine.callMove traced = .leave) :
    machine.stack.live
      = (cycle traced machine).state.stack.live ++ [(cycle traced machine).state.pc] :=
  ((cycle_turn traced hmachine).moves hmachine).2 hleave

theorem length_live_cycle (hmachine : machine.WellFormed) :
    (cycle traced machine).state.stack.live.length = (cycle traced machine).state.stack.depth :=
  CallStack.length_live ((cycle_turn traced hmachine).wellFormed hmachine).stored

/-! ### Runs -/

/-- The cycles that begin in some states lead a stack to another: each begins with the stack that
the one before has left. -/
def Linked (traced : Bool) (capacity : Int) : CallStack → List Machine → CallStack → Prop
  | stack, [], stack' => stack = stack'
  | stack, machine :: rest, stack' =>
      machine.stack = stack ∧ machine.Sound capacity ∧
        Linked traced capacity (cycle traced machine).state.stack rest stack'

variable {capacity : Int}

theorem Linked.append {stack stack' stack'' : CallStack} {first second : List Machine}
    (hfirst : Linked traced capacity stack first stack')
    (hsecond : Linked traced capacity stack' second stack'') :
    Linked traced capacity stack (first ++ second) stack'' := by
  induction first generalizing stack with
  | nil =>
      cases hfirst
      exact hsecond
  | cons machine rest ih => exact ⟨hfirst.1, hfirst.2.1, ih hfirst.2.2⟩

theorem linked_cycleStarts (count : Nat) (hmachine : machine.Sound capacity) :
    Linked traced capacity machine.stack (machine.cycleStarts traced count)
      (cycles count traced machine).state.stack := by
  induction count generalizing machine with
  | zero => rfl
  | succ count ih =>
      refine ⟨rfl, hmachine, ?_⟩
      have hreached := (keeps_sound_cycle traced machine hmachine).1
      cases hresult : (cycle traced machine).result with
      | ok _ =>
          rw [cycles, Step.bind_of_ok hresult]
          exact ih hreached
      | error fault =>
          rw [cycles, Step.bind_of_error hresult]
          rfl

theorem stack_frame (count : Int) :
    (frame count traced machine).state.stack
      = (cycles count.toNat traced machine).state.stack := by
  cases hresult : (cycles count.toNat traced machine).result with
  | ok _ => rw [(frame_of_ok hresult).1]; rfl
  | error fault => rw [(frame_of_error hresult).1]

theorem linked_startsOf {command : Command} (hreset : command ≠ .reset)
    (hmachine : machine.Sound capacity) :
    Linked traced capacity machine.stack (machine.startsOf traced command)
      (perform command traced machine).state.stack := by
  cases command with
  | cycle =>
      rw [state_perform_cycle]
      exact ⟨rfl, hmachine, rfl⟩
  | frame count =>
      rw [state_perform_frame, stack_frame]
      exact linked_cycleStarts count.toNat hmachine
  | reset => exact absurd rfl hreset
  | load program =>
      rw [state_perform_load]
      rfl
  | press key =>
      rw [state_perform_press]
      rfl
  | release key =>
      rw [state_perform_release]
      rfl
  | tick => rfl
  | takeDirty => rfl

theorem linked_starts {commands : List Command} (hreset : .reset ∉ commands)
    (hmachine : machine.Sound capacity) :
    Linked traced capacity machine.stack (machine.starts traced commands)
      (machine.after traced commands).stack := by
  induction commands generalizing machine with
  | nil => rfl
  | cons command rest ih =>
      have hhead : command ≠ .reset := fun heq => hreset (heq ▸ List.mem_cons_self)
      have hrest : .reset ∉ rest := fun hmem => hreset (List.mem_cons_of_mem command hmem)
      refine (linked_startsOf hhead hmachine).append (ih hrest ?_)
      exact (keeps_sound_perform command traced machine hmachine).1

variable {stack stack' : CallStack} {starts : List Machine}

theorem Linked.sound (hlinked : Linked traced capacity stack starts stack') :
    ∀ machine ∈ starts, machine.Sound capacity := by
  induction starts generalizing stack with
  | nil => simp
  | cons machine rest ih =>
      intro reached hreached
      rcases List.mem_cons.mp hreached with rfl | hrest
      · exact hlinked.2.1
      · exact ih hlinked.2.2 reached hrest

theorem Linked.live_eq (hlinked : Linked traced capacity stack starts stack') :
    stack'.live =
      starts.foldl (fun live machine => (machine.callMove traced).apply live) stack.live := by
  induction starts generalizing stack with
  | nil => rw [show stack = stack' from hlinked, List.foldl_nil]
  | cons machine rest ih =>
      obtain ⟨rfl, hmachine, hrest⟩ := hlinked
      rw [ih hrest, live_cycle traced hmachine.1, List.foldl_cons]

/-- Every call that succeeds adds one live address, every return that succeeds takes one away. -/
theorem Linked.length_eq (hlinked : Linked traced capacity stack starts stack') :
    stack'.live.length + starts.countP (fun machine => machine.callMove traced = .leave)
      = stack.live.length + starts.countP (fun machine => (machine.callMove traced).isEnter) := by
  induction starts generalizing stack with
  | nil => rw [show stack = stack' from hlinked]; rfl
  | cons machine rest ih =>
      obtain ⟨rfl, hmachine, hrest⟩ := hlinked
      have hlength := ih hrest
      have hlive := live_cycle traced hmachine.1
      cases hmove : machine.callMove traced with
      | enter address =>
          rw [hlive, hmove, CallMove.apply, List.length_append, List.length_singleton] at hlength
          rw [List.countP_cons_of_neg (by simp [hmove]),
            List.countP_cons_of_pos (by simp [hmove, CallMove.isEnter])]
          omega
      | leave =>
          rw [live_of_leave hmachine.1 hmove, List.length_append, List.length_singleton,
            List.countP_cons_of_pos (by simp [hmove]),
            List.countP_cons_of_neg (by simp [hmove, CallMove.isEnter])]
          omega
      | stay =>
          rw [hlive, hmove, CallMove.apply] at hlength
          rw [List.countP_cons_of_neg (by simp [hmove]),
            List.countP_cons_of_neg (by simp [hmove, CallMove.isEnter])]
          omega

theorem Linked.behind {before behind : List Machine}
    (hlinked : Linked traced capacity stack (before ++ machine :: behind) stack') :
    machine.Sound capacity ∧
      Linked traced capacity (cycle traced machine).state.stack behind stack' := by
  induction before generalizing stack with
  | nil => exact hlinked.2
  | cons first rest ih => exact ih hlinked.2.2

/-- While the stack does not come back to some addresses, it holds on to the address that was put
on them; the cycle that brings it back returns to that address. -/
theorem Linked.closes {live : List Int} {address : Int} {between behind : List Machine}
    (hlinked : Linked traced capacity stack (between ++ machine :: behind) stack')
    (hstack : live ++ [address] <+: stack.live)
    (hbetween : ∀ inner ∈ between,
      (cycle traced inner).state.stack.live.length ≠ live.length)
    (hback : (cycle traced machine).state.stack.live.length = live.length) :
    machine.callMove traced = .leave ∧ (cycle traced machine).state.pc = address ∧
      (cycle traced machine).state.stack.live = live := by
  induction between generalizing stack with
  | nil =>
      obtain ⟨rfl, hmachine, -⟩ := hlinked
      have hlonger := hstack.length_le
      rw [List.length_append, List.length_singleton] at hlonger
      have hlive := live_cycle traced hmachine.1
      cases hmove : machine.callMove traced with
      | enter inner =>
          rw [hlive, hmove, CallMove.apply, List.length_append] at hback
          omega
      | stay =>
          rw [hlive, hmove, CallMove.apply] at hback
          omega
      | leave =>
          have hlast := live_of_leave hmachine.1 hmove
          rw [hlast] at hstack
          have hsame : live ++ [address] = _ := hstack.eq_of_length (by simp [hback])
          obtain ⟨hbelow, haddress⟩ := List.append_inj' hsame rfl
          exact ⟨rfl, (List.singleton_inj.mp haddress).symm, hbelow.symm⟩
  | cons inner rest ih =>
      obtain ⟨rfl, hinner, hrest⟩ := hlinked
      have hopen := hbetween inner List.mem_cons_self
      refine ih hrest ?_ fun later hlater => hbetween later (List.mem_cons_of_mem inner hlater)
      have hlive := live_cycle traced hinner.1
      cases hmove : inner.callMove traced with
      | enter address' =>
          rw [hlive, hmove]
          exact hstack.trans (List.prefix_append _ _)
      | stay =>
          rw [hlive, hmove]
          exact hstack
      | leave =>
          -- A return from here that is no closing one leaves more than `live`.
          have hlast := live_of_leave hinner.1 hmove
          have hlonger := hstack.length_le
          simp only [hlast, List.length_append, List.length_singleton] at hlonger
          rw [hlast] at hstack
          refine List.prefix_of_prefix_length_le hstack (List.prefix_append _ _) ?_
          rw [List.length_append, List.length_singleton]
          omega

theorem callMove_of_isEnter (henter : (machine.callMove traced).isEnter) :
    machine.callMove traced = .enter ((machine.pc + 2) % 0x10000) := by
  unfold callMove at henter ⊢
  cases hresult : (cycle traced machine).result with
  | error fault => simp [hresult, moveOf, CallMove.isEnter] at henter
  | ok done =>
      rw [hresult, moveOf] at henter
      split at henter
      · rw [moveOf, if_pos ‹_›]
      · split at henter <;> simp [CallMove.isEnter] at henter

/-- What the cycles of a run do to the live addresses. A closed call is one after which some cycle
is the first to bring the depth back. -/
structure KeepsCallDiscipline (traced : Bool) (capacity : Int) (start : Machine)
    (commands : List Command) : Prop where
  live_eq : (start.after traced commands).stack.live =
    (start.starts traced commands).foldl (fun live machine => (machine.callMove traced).apply live)
      start.stack.live
  depth_eq : (start.after traced commands).stack.depth
      + (start.starts traced commands).countP (fun machine => machine.callMove traced = .leave)
    = start.stack.depth
      + (start.starts traced commands).countP fun machine => (machine.callMove traced).isEnter
  depth_le : (start.after traced commands).stack.depth ≤ max capacity 0 ∧
    ∀ machine ∈ start.starts traced commands, machine.stack.depth ≤ max capacity 0
  returns : ∀ machine ∈ start.starts traced commands, machine.callMove traced = .leave →
    machine.stack.live
      = (cycle traced machine).state.stack.live ++ [(cycle traced machine).state.pc]
  closes : ∀ before caller between closer behind,
    start.starts traced commands = before ++ caller :: (between ++ closer :: behind) →
    (caller.callMove traced).isEnter →
    (∀ inner ∈ between, (cycle traced inner).state.stack.depth ≠ caller.stack.depth) →
    (cycle traced closer).state.stack.depth = caller.stack.depth →
    closer.callMove traced = .leave ∧
      (cycle traced closer).state.pc = (caller.pc + 2) % 0x10000 ∧
      (cycle traced closer).state.stack.live = caller.stack.live

theorem keepsCallDiscipline_of_linked {start : Machine} {commands : List Command}
    (hstart : start.Sound capacity) (hafter : (start.after traced commands).Sound capacity)
    (hlinked : Linked traced capacity start.stack (start.starts traced commands)
      (start.after traced commands).stack) :
    KeepsCallDiscipline traced capacity start commands where
  live_eq := hlinked.live_eq
  depth_eq := by
    have hlength := hlinked.length_eq
    rwa [CallStack.length_live hstart.1.stored,
      CallStack.length_live hafter.1.stored] at hlength
  depth_le := by
    refine ⟨?_, fun machine hmem => ?_⟩
    · exact hafter.2 ▸ hafter.1.stack.depth_le
    · have hmachine := hlinked.sound machine hmem
      exact hmachine.2 ▸ hmachine.1.stack.depth_le
  returns := fun machine hmem hleave => live_of_leave (hlinked.sound machine hmem).1 hleave
  closes := by
    intro before caller between closer behind hstarts henter hbetween hback
    have hsound := hlinked.sound
    rw [hstarts] at hlinked hsound
    obtain ⟨hcaller, hbehind⟩ := hlinked.behind
    have hdepth := CallStack.length_live hcaller.1.stored
    have hpushed := live_cycle traced hcaller.1
    rw [callMove_of_isEnter henter] at hpushed
    have hopened : caller.stack.live ++ [(caller.pc + 2) % 0x10000]
        <+: (cycle traced caller).state.stack.live := by
      rw [hpushed]
      exact List.prefix_rfl
    refine hbehind.closes hopened (fun inner hinner => ?_) ?_
    · rw [length_live_cycle (hsound inner (by simp [hinner])).1, hdepth]
      exact hbetween inner hinner
    · rw [length_live_cycle (hsound closer (by simp)).1, hdepth]
      exact hback

/-- From any state that can be reached, with whatever commands but a reset, the live addresses
follow the calls and returns that succeed. -/
theorem call_discipline (traced : Bool) (capacity : Int) (random : RandomBytes)
    (earlier : List Command) {commands : List Command} (hreset : .reset ∉ commands) :
    KeepsCallDiscipline traced capacity ((powerOn capacity random).after traced earlier)
      commands := by
  have hstart := sound_after traced earlier (sound_powerOn capacity random)
  exact keepsCallDiscipline_of_linked hstart (sound_after traced commands hstart)
    (linked_starts hreset hstart)

theorem call_discipline_nested_overflow :
    .reset ∉ [Command.cycle, .frame 3, .tick, .press 5, .cycle] ∧
      KeepsCallDiscipline true 2
        ((powerOn 2 (.cycling #[])).after true
          [.load [0x22, 0x04, 0x12, 0x02, 0x22, 0x06, 0x22, 0x08, 0x00, 0xEE]])
        [.cycle, .frame 3, .tick, .press 5, .cycle] :=
  ⟨by decide, call_discipline true 2 (.cycling #[]) _ (by decide)⟩

end Machine

end ChipEight
