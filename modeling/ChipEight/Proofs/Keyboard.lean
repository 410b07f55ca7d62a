import ChipEight.Proofs.ControlFlow
import ChipEight.Proofs.Driving
import ChipEight.Proofs.KeyWait
import Mathlib.Data.List.Induction

/-!
The keypad as the keyboard leaves it. Every key lies on one place of the keyboard, and it is down if
the last event at that place was a press. The machine only looks at the keypad, so it makes no
difference whether it runs between the events.
-/

namespace ChipEight

namespace Event

/-- The characters on which the keys lie, in the order of the keys. -/
def characters : Vector Char 16 :=
  #v['x', '1', '2', '3', 'q', 'w', 'e', 'a', 's', 'd', 'z', 'c', '4', 'r', 'f', 'v']

def codeOf (key : Fin 16) : Int :=
  (characters.get key).toNat

/-- Whether an event presses or releases the place of a key. -/
def isAt (key : Fin 16) : Event → Bool
  | keyDown code | keyUp code => code = codeOf key
  | quit | other => false

/-- The last of some events at the place of a key. -/
def lastAt? (key : Fin 16) (events : List Event) : Option Event :=
  (events.filter (isAt key)).getLast?

/-- The last event at the place of a key is a press. -/
def Held (events : List Event) (key : Fin 16) : Prop :=
  lastAt? key events = some (keyDown (codeOf key))

instance (events : List Event) (key : Fin 16) : Decidable (Held events key) :=
  inferInstanceAs (Decidable (lastAt? key events = some (keyDown (codeOf key))))

end Event

def Command.sparesKeypad : Command → Bool
  | .press _ | .release _ | .reset => false
  | _ => true

namespace Machine

def handled (machine : Machine) (traced : Bool) (events : List Event) : Machine :=
  (Session.handle events traced machine).state

def mixed (traced : Bool) (machine : Machine) : List (Event ⊕ Command) → Machine
  | [] => machine
  | .inl event :: rest => mixed traced (machine.handled traced [event]) rest
  | .inr command :: rest => mixed traced (perform command traced machine).state rest

/-- All events get through to the keypad, and then it is what the last event of each key says. -/
structure FollowsKeyboard (traced : Bool) (machine : Machine) (events : List Event) : Prop where
  succeeds : (Session.handle events traced machine).result = .ok ()
  reads : ∀ key : Fin 16,
    (machine.handled traced events).keypad.get key.val = .ok (decide (Event.Held events key))
  beyond : ∀ number : Int, 16 ≤ number →
    (machine.handled traced events).keypad.get number = .ok false
  first : ∀ key : Fin 16, (machine.handled traced events).keypad.first = .ok (some key.val) ↔
    Event.Held events key ∧ ∀ lower < key, ¬Event.Held events lower
  noFirst : (machine.handled traced events).keypad.first = .ok none ↔
    ∀ key, ¬Event.Held events key
  untouched : (machine.handled traced events).keypad.untouched = true ↔
    (machine.handled traced events).keypad.first = .ok none
  /-- Only the last event of each key counts. -/
  determined : ∀ events', (∀ key, Event.lastAt? key events' = Event.lastAt? key events) →
    machine.handled traced events' = machine.handled traced events
  commute : ∀ before first second behind, events = before ++ first :: second :: behind →
    (∀ key, ¬(first.isAt key ∧ second.isAt key)) →
    machine.handled traced (before ++ second :: first :: behind) = machine.handled traced events
  idle : ∀ before event behind, events = before ++ event :: behind →
    event ∈ [.quit, .other] ∨ (∃ code, Event.keyOf? code = none ∧
      (event = .keyDown code ∨ event = .keyUp code)) →
    machine.handled traced (before ++ behind) = machine.handled traced events
  interleaved : ∀ happenings : List (Event ⊕ Command),
    happenings.filterMap Sum.getLeft? = events →
    (∀ command, .inr command ∈ happenings → command.sparesKeypad) →
    (machine.mixed traced happenings).keypad = (machine.handled traced events).keypad

end Machine

/-! ### One event -/

namespace Event

variable {code : Int} {key : Fin 16} {event : Event} {events : List Event}

theorem keyOf?_codeOf (key : Fin 16) : keyOf? (codeOf key) = some key.val := by
  revert key
  decide

theorem codeOf_inj {key' : Fin 16} (hcodes : codeOf key = codeOf key') : key = key' := by
  have hnumbers := keyOf?_codeOf key
  rw [hcodes, keyOf?_codeOf] at hnumbers
  exact Fin.ext (Option.some.inj hnumbers).symm

theorem exists_codeOf_of_keyOf? {number : Nat} (hnumber : keyOf? code = some number) :
    ∃ key : Fin 16, key.val = number ∧ code = codeOf key := by
  have hlayout : ∀ entry ∈ layout, ∃ key : Fin 16,
      key.val = entry.2 ∧ (entry.1.toNat : Int) = codeOf key := by decide
  obtain ⟨entry, hfind, rfl⟩ := Option.map_eq_some_iff.mp hnumber
  obtain ⟨key, hkey, hcode⟩ := hlayout entry (List.mem_of_find?_eq_some hfind)
  have hcharacter : (entry.1.toNat : Int) = code := by simpa using List.find?_some hfind
  exact ⟨key, hkey, hcharacter.symm.trans hcode⟩

theorem keyOf?_eq_some_iff : keyOf? code = some key.val ↔ code = codeOf key := by
  constructor
  · intro hnumber
    obtain ⟨key', hkey, hcode⟩ := exists_codeOf_of_keyOf? hnumber
    rw [hcode, Fin.ext hkey]
  · rintro rfl
    exact keyOf?_codeOf key

theorem ne_codeOf_of_keyOf? (hnone : keyOf? code = none) (key : Fin 16) : code ≠ codeOf key := by
  rintro rfl
  rw [keyOf?_codeOf] at hnone
  cases hnone

end Event

namespace Keypad

variable {keypad : Keypad} {key : Fin 16}

theorem get_of_fin (hkeypad : keypad.Whole) (key : Fin 16) :
    keypad.get key.val = .ok (keypad.isDown key) := by
  have hholds : keypad.Holds key.val ↔ keypad.isDown key = true := by
    constructor
    · rintro ⟨key', hkey, hdown⟩
      rwa [Fin.ext hkey] at hdown
    · exact fun hdown => ⟨key, rfl, hdown⟩
  rw [get_eq_holds hkeypad]
  exact congrArg Except.ok (by simp [hholds])

theorem first_eq_some_iff (hkeypad : keypad.Whole) :
    keypad.first = .ok (some key.val) ↔ keypad.IsLowest key := by
  rw [first_eq hkeypad, Except.ok.injEq, ← lowest_eq_some_iff]
  exact (Option.map_injective Fin.val_injective).eq_iff (b := some key)

theorem first_eq_none_iff (hkeypad : keypad.Whole) : keypad.first = .ok none ↔ keypad.AllUp := by
  rw [first_eq hkeypad, Except.ok.injEq, Option.map_eq_none_iff, lowest_eq_none_iff]

end Keypad

namespace Event

variable {keypad : Keypad} {key : Fin 16}

/-- An event decides about its own key and leaves the others alone. -/
theorem isDown_applied (hkeypad : keypad.Whole) (event : Event) (key : Fin 16) :
    (event.applied keypad).isDown key =
      if event.isAt key then decide (event = .keyDown (codeOf key)) else keypad.isDown key := by
  cases event with
  | quit | other => rfl
  | keyDown code =>
      cases hnumber : keyOf? code with
      | none => simp [applied, hnumber, isAt, ne_codeOf_of_keyOf? hnumber key]
      | some number =>
          obtain ⟨pressed, rfl, rfl⟩ := exists_codeOf_of_keyOf? hnumber
          have hsame : codeOf pressed = codeOf key ↔ pressed = key := ⟨codeOf_inj, congrArg codeOf⟩
          rw [applied, hnumber, Option.elim_some, Keypad.isDown_moved hkeypad]
          by_cases hkey : pressed = key <;> simp [isAt, hsame, hkey]
  | keyUp code =>
      cases hnumber : keyOf? code with
      | none => simp [applied, hnumber, isAt, ne_codeOf_of_keyOf? hnumber key]
      | some number =>
          obtain ⟨released, rfl, rfl⟩ := exists_codeOf_of_keyOf? hnumber
          have hsame : codeOf released = codeOf key ↔ released = key :=
            ⟨codeOf_inj, congrArg codeOf⟩
          rw [applied, hnumber, Option.elim_some, Keypad.isDown_moved hkeypad]
          by_cases hkey : released = key <;> simp [isAt, hsame, hkey]

theorem lastAt?_concat (key : Fin 16) (events : List Event) (event : Event) :
    lastAt? key (events ++ [event])
      = if event.isAt key then some event else lastAt? key events := by
  rw [lastAt?, List.filter_append]
  by_cases hkey : event.isAt key <;> simp [hkey, lastAt?]

/-- A key is as its last event says, or as it was. -/
theorem isDown_foldl_applied (hkeypad : keypad.Whole) (events : List Event) (key : Fin 16) :
    (events.foldl applied keypad).isDown key =
      match lastAt? key events with
      | some event => decide (event = .keyDown (codeOf key))
      | none => keypad.isDown key := by
  -- From the back, as the last event decides.
  induction events using List.reverseRecOn with
  | nil => rfl
  | append_singleton events event ih =>
      rw [List.foldl_concat, isDown_applied (whole_foldl_applied hkeypad events), lastAt?_concat]
      by_cases hkey : event.isAt key
      · simp [hkey]
      · simp [hkey, ih]

end Event

/-! ### All events of a machine -/

namespace Machine

variable {traced : Bool} {machine : Machine} {events events' : List Event}

theorem handled_eq (hkeypad : machine.keypad.Whole) (events : List Event) :
    machine.handled traced events =
      { machine with keypad := events.foldl Event.applied machine.keypad } := by
  rw [handled, Session.handle_eq hkeypad]

theorem handled_congr (hkeypad : machine.keypad.Whole)
    (hlast : ∀ key, Event.lastAt? key events' = Event.lastAt? key events) :
    machine.handled traced events' = machine.handled traced events := by
  have hkeypads : events'.foldl Event.applied machine.keypad
      = events.foldl Event.applied machine.keypad := by
    refine Keypad.ext_isDown (Event.whole_foldl_applied hkeypad events')
      (Event.whole_foldl_applied hkeypad events) fun key => ?_
    rw [Event.isDown_foldl_applied hkeypad, Event.isDown_foldl_applied hkeypad, hlast]
  rw [handled_eq hkeypad, handled_eq hkeypad, hkeypads]

theorem handled_swap (hkeypad : machine.keypad.Whole) (before behind : List Event)
    {first second : Event} (hkeys : ∀ key, ¬(first.isAt key ∧ second.isAt key)) :
    machine.handled traced (before ++ second :: first :: behind)
      = machine.handled traced (before ++ first :: second :: behind) := by
  refine handled_congr hkeypad fun key => congrArg List.getLast? ?_
  by_cases hfirst : first.isAt key
  · have hsecond : second.isAt key = false :=
      Bool.eq_false_iff.mpr fun hsecond => hkeys key ⟨hfirst, hsecond⟩
    simp [hfirst, hsecond]
  · simp [List.filter_cons, hfirst]

theorem handled_drop (hkeypad : machine.keypad.Whole) (before behind : List Event) {event : Event}
    (hidle : ∀ key, event.isAt key = false) :
    machine.handled traced (before ++ behind)
      = machine.handled traced (before ++ event :: behind) :=
  handled_congr hkeypad fun key => congrArg List.getLast? (by simp [hidle key])

/-! ### Running in between -/

theorem keypad_frame (hmachine : machine.Whole) (count : Int) :
    (frame count traced machine).state.keypad = machine.keypad := by
  have hcycles : Part.keypad.Same machine (cycles count.toNat traced machine).state :=
    same_cycles hmachine fun start _ => keypad_not_mem_writes start
  cases hresult : (cycles count.toNat traced machine).result with
  | error fault =>
      rw [(frame_of_error hresult).1]
      exact hcycles
  | ok done =>
      rw [(frame_of_ok hresult).1]
      exact hcycles

theorem keypad_perform (hmachine : machine.Whole) {command : Command}
    (hspares : command.sparesKeypad) :
    (perform command traced machine).state.keypad = machine.keypad := by
  cases command with
  | load program =>
      rw [state_perform_load]
      rfl
  | cycle => rw [state_perform_cycle, keypad_cycle hmachine]
  | frame count => rw [state_perform_frame, keypad_frame hmachine]
  | tick | takeDirty => rfl
  | press key | release key | reset => cases hspares

theorem keypad_mixed (hmachine : machine.Whole) {happenings : List (Event ⊕ Command)}
    (hspares : ∀ command, .inr command ∈ happenings → command.sparesKeypad) :
    (machine.mixed traced happenings).keypad
      = (machine.handled traced (happenings.filterMap Sum.getLeft?)).keypad := by
  induction happenings generalizing machine with
  | nil => rfl
  | cons happening rest ih =>
      have hrest : ∀ command, .inr command ∈ rest → command.sparesKeypad :=
        fun command hmem => hspares command (List.mem_cons_of_mem happening hmem)
      cases happening with
      | inl event =>
          have hbehind : (machine.handled traced [event]).Whole :=
            Session.keepsWhole_handle [event] traced machine hmachine
          rw [mixed, ih hbehind hrest, handled, handled,
            ← Session.state_handle_append hmachine.keypad]
          rfl
      | inr command =>
          have hbehind := keepsWhole_perform command traced machine hmachine
          have hkept : (perform command traced machine).state.keypad = machine.keypad :=
            keypad_perform hmachine (hspares command List.mem_cons_self)
          rw [mixed, ih hbehind hrest, handled_eq hbehind.keypad, hkept,
            List.filterMap_cons_none rfl, handled_eq hmachine.keypad]

/-! ### The keypad of a machine that was just switched on -/

theorem isDown_handled_powerOn (traced : Bool) (capacity : Int) (random : RandomBytes)
    (events : List Event) (key : Fin 16) :
    ((powerOn capacity random).handled traced events).keypad.isDown key
      = decide (Event.Held events key) := by
  have hkeypad : (powerOn capacity random).keypad.Whole := Keypad.whole_released
  have hreleased : Keypad.released.AllUp := by decide
  have hup : (powerOn capacity random).keypad.isDown key = false := hreleased key
  rw [handled_eq hkeypad, Event.isDown_foldl_applied hkeypad, hup, Bool.eq_iff_iff,
    decide_eq_true_eq, Event.Held]
  cases Event.lastAt? key events with
  | none => simp
  | some event => simp

theorem followsKeyboard_powerOn (traced : Bool) (capacity : Int) (random : RandomBytes)
    (events : List Event) : (powerOn capacity random).FollowsKeyboard traced events := by
  have hmachine := whole_powerOn capacity random
  have hkeypad : ((powerOn capacity random).handled traced events).keypad.Whole :=
    (Session.keepsWhole_handle events traced _ hmachine).keypad
  refine
    { succeeds := by rw [Session.handle_eq hmachine.keypad]
      reads := fun key => ?_
      beyond := fun number hnumber => ?_
      first := fun key => ?_
      noFirst := ?_
      untouched := (Keypad.untouched_iff hkeypad).trans (Keypad.first_eq_none_iff hkeypad).symm
      determined := fun _ hlast => handled_congr hmachine.keypad hlast
      commute := ?_
      idle := ?_
      interleaved := ?_ }
  · rw [Keypad.get_of_fin hkeypad, isDown_handled_powerOn]
  · have hbeyond : ¬number < keyCount := by
      simp only [keyCount]
      omega
    rw [Keypad.get, if_neg hbeyond]
  · simp only [Keypad.first_eq_some_iff hkeypad, Keypad.IsLowest, isDown_handled_powerOn,
      decide_eq_true_eq, decide_eq_false_iff_not]
  · simp only [Keypad.first_eq_none_iff hkeypad, Keypad.AllUp, isDown_handled_powerOn,
      decide_eq_false_iff_not]
  · rintro before first second behind rfl hkeys
    exact handled_swap hmachine.keypad before behind hkeys
  · rintro before event behind rfl hidle
    refine handled_drop hmachine.keypad before behind fun key => ?_
    rcases hidle with hidle | ⟨code, hnone, rfl | rfl⟩
    · simp only [List.mem_cons, List.not_mem_nil, or_false] at hidle
      rcases hidle with rfl | rfl <;> rfl
    · simpa [Event.isAt] using Event.ne_codeOf_of_keyOf? hnone key
    · simpa [Event.isAt] using Event.ne_codeOf_of_keyOf? hnone key
  · rintro happenings rfl hspares
    exact keypad_mixed hmachine hspares

/-- Each key has its place on the keyboard and the escape key has none; only closing the window and
pressing the escape key end a session; and after any events the keypad is as they say. -/
theorem keyboard_decides_keypad (traced : Bool) (capacity : Int) (random : RandomBytes)
    (events : List Event) :
    (∀ code, ∀ key : Fin 16, Event.keyOf? code = some key.val ↔ code = Event.codeOf key) ∧
      (∀ code, Event.keyOf? code = none ↔ ∀ key, code ≠ Event.codeOf key) ∧
      Event.keyOf? Event.escapeCode = none ∧
      (∀ event : Event, event.goesOn = false ↔
        event = .quit ∨ event = .keyDown Event.escapeCode) ∧
      (powerOn capacity random).FollowsKeyboard traced events := by
  refine ⟨fun code key => Event.keyOf?_eq_some_iff, fun code => ?_, rfl, fun event => ?_,
    followsKeyboard_powerOn traced capacity random events⟩
  · refine ⟨Event.ne_codeOf_of_keyOf?, fun hcodes => ?_⟩
    cases hnumber : Event.keyOf? code with
    | none => rfl
    | some number =>
        obtain ⟨key, -, hcode⟩ := Event.exists_codeOf_of_keyOf? hnumber
        exact absurd hcode (hcodes key)
  · cases event <;> simp [Event.goesOn]

end Machine

end ChipEight
