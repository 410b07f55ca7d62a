import ChipEight.Machine.Basic
import ChipEight.Proofs.KeypadLemmas
import ChipEight.Proofs.Legibility
import ChipEight.Proofs.MemoryLemmas

/-!
The report of a machine can be read back: whatever follows the report of a part tells nothing about
the part, so two machines with one report agree on all that it is about. No number need lie in its
range for that; only the keypads have to be whole, since their reports tell no more of a key than
whether it is down.
-/

namespace ChipEight

/-! ### The reports of the parts -/

theorem tells_decimal : Tells (isPartOf ['-']) (fun n : Int => toString n) id :=
  Spells.tells (by decide) (by simp [isNumeral]) spells_toString

theorem tells_decimal_natCast : Tells (isPartOf ['-']) (fun n : Nat => toString n) id :=
  (Spells.tells (by decide) (by simp [isNumeral]) spells_toString_natCast).imp
    fun _ _ heq => Int.ofNat.inj heq

theorem tells_padded (width : Nat) : Tells (isPartOf ['-', '0', 'x']) (Hex.padded width) id :=
  Spells.tells (by decide) (by simp [isNumeral]) (spells_padded width)

theorem tells_literal : Tells (isPartOf ['-', '0', 'x']) Hex.literal id :=
  Spells.tells (by decide) (by simp [isNumeral]) spells_literal

theorem tells_truth : Tells Char.isAlpha Report.truth id :=
  .of_inside (by simp [Report.truth]) (by decide)

theorem tells_bytes :
    TellsAlone
      (fun bytes : List UInt8 => Report.listed (bytes.map fun byte => toString byte.toNat)) id := by
  have hbyte : Tells (isPartOf ['-']) (fun byte : UInt8 => toString byte.toNat) id :=
    fun byte byte' rest rest' hrest hrest' heq =>
      (tells_decimal_natCast hrest hrest' heq).imp UInt8.toNat_inj.mp id
  refine Report.tells_listed hbyte (fun byte => ?_) (by decide)
  exact (spells_toString_natCast byte.toNat).not_ends (by decide) (by decide)

theorem tells_quoted :
    TellsAlone (fun addresses : List Int => Report.quoted (addresses.map Hex.literal)) id := by
  have hitem : Tells (· == '\'') (fun address => s!"'{Hex.literal address}'") id := by
    intro address address' rest rest' _ _ heq
    simp only [String.append_assoc] at heq
    obtain ⟨haddress, heq⟩ := tells_literal.cut (by decide) heq
    exact ⟨haddress, (String.append_right_inj _).mp heq⟩
  have hquoted (addresses : List Int) : Report.quoted (addresses.map Hex.literal)
      = Report.listed (addresses.map fun address => s!"'{Hex.literal address}'") := by
    rw [Report.quoted, List.map_map]
    rfl
  simp only [hquoted]
  refine Report.tells_listed hitem (fun address => ?_) (by decide)
  simp [Ends, toString]

namespace CallStack

theorem tells_report : TellsAlone report live := by
  intro stack stack' rest rest' _ _ heq
  -- The equation lemma of a report would compare two texts byte by byte.
  delta report at heq
  simp only [String.append_assoc] at heq
  obtain ⟨hlive, heq⟩ := tells_quoted.cut (by decide) heq
  exact ⟨hlive, (String.append_right_inj _).mp heq⟩

end CallStack

namespace Timers

theorem tells_report : TellsAlone report id := by
  intro timers timers' rest rest' _ _ heq
  delta report at heq
  simp only [String.append_assoc] at heq
  obtain ⟨hdelay, heq⟩ := tells_decimal.cut (by decide) heq
  obtain ⟨hsound, heq⟩ := tells_decimal.cut (by decide) heq
  refine ⟨?_, (String.append_right_inj _).mp heq⟩
  cases timers
  cases timers'
  exact congrArg₂ mk hdelay hsound

end Timers

namespace Keypad

variable {keypad keypad' : Keypad}

theorem mem_pressed_iff (hkeypad : keypad.Whole) (key : Fin 16) :
    key.val ∈ keypad.pressed ↔ keypad.isDown key = true := by
  have hplace := val_lt_size hkeypad key
  rw [pressed, List.mem_filter, List.mem_range, Array.getElem?_eq_getElem hplace,
    Option.getD_some, getElem_keys hkeypad key.isLt, toUInt8_bne_zero]
  exact and_iff_right key.isLt

theorem eq_of_pressed_eq (hkeypad : keypad.Whole) (hkeypad' : keypad'.Whole)
    (hpressed : keypad.pressed = keypad'.pressed) : keypad = keypad' := by
  refine ext_isDown hkeypad hkeypad' fun key => Bool.eq_iff_iff.mpr ?_
  rw [← mem_pressed_iff hkeypad, ← mem_pressed_iff hkeypad', hpressed]

theorem tells_report : TellsAlone report pressed := by
  intro keypad keypad' rest rest' _ _ heq
  have hkeys (keys : List Nat) : (keys.map fun key : Nat => Hex.literal key)
      = (keys.map (Nat.cast : Nat → Int)).map Hex.literal := by
    rw [List.map_map]
    rfl
  delta report at heq
  simp only [hkeys, String.append_assoc] at heq
  obtain ⟨hpressed, heq⟩ := tells_quoted.cut (by decide) heq
  refine ⟨?_, (String.append_right_inj _).mp heq⟩
  exact List.map_injective_iff.mpr (fun _ _ => Int.ofNat.inj) hpressed

end Keypad

namespace Display

def shown (display : Display) : Int × Int × Nat × Bool :=
  (display.width, display.height, display.lit, display.dirty)

theorem tells_report : TellsAlone report shown := by
  intro display display' rest rest' _ _ heq
  delta report at heq
  simp only [String.append_assoc] at heq
  obtain ⟨hwidth, heq⟩ := tells_decimal.cut (by decide) heq
  obtain ⟨hheight, heq⟩ := tells_decimal.cut (by decide) heq
  obtain ⟨hlit, heq⟩ := tells_decimal_natCast.cut (by decide) heq
  obtain ⟨hdirty, heq⟩ := tells_truth.cut (by decide) heq
  refine ⟨?_, (String.append_right_inj _).mp heq⟩
  simp only [id] at *
  simp only [shown, hwidth, hheight, hlit, hdirty]

end Display

namespace Report

theorem numberOrNone_injective : Function.Injective numberOrNone := by
  have hnone (number : Int) : numberOrNone none ≠ numberOrNone (some number) := by
    intro heq
    have hmem : 'N' ∈ (toString number).toList := by
      rw [show toString number = numberOrNone none from heq.symm]
      decide
    have hN : ¬('N' ∈ ['-'] ∨ isNumeral 'N' = true) := by decide
    exact hN ((spells_toString number).mem_or_isNumeral (by decide) (by decide) 'N' hmem)
  intro number number' heq
  cases number with
  | none =>
      cases number' with
      | none => rfl
      | some number' => exact absurd heq (hnone number')
  | some number =>
      cases number' with
      | none => exact absurd heq.symm (hnone number)
      | some number' =>
          have hend : Ends (isPartOf ['-']) "" := by decide
          have htexts : toString number ++ "" = toString number' ++ "" := congrArg (· ++ "") heq
          obtain ⟨hnumber, -⟩ := tells_decimal hend hend htexts
          exact congrArg some hnumber

end Report

namespace Machine

/-- What a report is about: two machines that agree on it may differ in their memories, in what is
lit where, in the capacity and the dead slots of their stacks and in what they draw at random. -/
structure ReadsLike (machine machine' : Machine) : Prop where
  pc : machine.pc = machine'.pc
  index : machine.index = machine'.index
  registers : machine.registers = machine'.registers
  live : machine.stack.live = machine'.stack.live
  timers : machine.timers = machine'.timers
  keypad : machine.keypad = machine'.keypad
  size : machine.display.width = machine'.display.width ∧
    machine.display.height = machine'.display.height
  lit : machine.display.lit = machine'.display.lit
  dirty : machine.display.dirty = machine'.display.dirty
  opcode : machine.opcode = machine'.opcode
  awaiting : machine.awaiting = machine'.awaiting

variable {machine machine' : Machine}

theorem readsLike_of_report_eq (hkeypad : machine.keypad.Whole) (hkeypad' : machine'.keypad.Whole)
    (heq : machine.report = machine'.report) : machine.ReadsLike machine' := by
  delta report at heq
  simp only [String.intercalate_cons_cons, String.intercalate_singleton, String.append_assoc] at heq
  obtain ⟨hpc, heq⟩ := (tells_padded 4).cut (by decide) heq
  obtain ⟨hindex, heq⟩ := (tells_padded 4).cut (by decide) heq
  obtain ⟨hbytes, heq⟩ := tells_bytes.cut (by decide) ((String.append_right_inj _).mp heq)
  obtain ⟨hlive, heq⟩ :=
    CallStack.tells_report.cut (by decide) ((String.append_right_inj _).mp heq)
  obtain ⟨htimers, heq⟩ := Timers.tells_report.cut (by decide) heq
  obtain ⟨hpressed, heq⟩ := Keypad.tells_report.cut (by decide) heq
  obtain ⟨hdisplay, heq⟩ := Display.tells_report.cut (by decide) heq
  obtain ⟨hopcode, heq⟩ := (tells_padded 4).cut (by decide) ((String.append_right_inj _).mp heq)
  have hawaiting := Report.numberOrNone_injective
    ((String.append_right_inj _).mp ((String.append_right_inj _).mp heq))
  simp only [Display.shown, Prod.mk.injEq] at hdisplay
  obtain ⟨hwidth, hheight, hlit, hdirty⟩ := hdisplay
  refine
    { pc := hpc, index := hindex, registers := ?_, live := hlive, timers := htimers,
      keypad := Keypad.eq_of_pressed_eq hkeypad hkeypad' hpressed, size := ⟨hwidth, hheight⟩,
      lit := hlit, dirty := hdirty, opcode := hopcode, awaiting := hawaiting }
  have harray := Array.toList_inj.mp hbytes
  cases hregisters : machine.registers
  cases hregisters' : machine'.registers
  rw [hregisters, hregisters'] at harray
  exact congrArg Registers.mk harray

/-- Two machines have the same report exactly if they agree on all that it is about. -/
theorem report_eq_iff (hkeypad : machine.keypad.Whole) (hkeypad' : machine'.keypad.Whole) :
    machine.report = machine'.report ↔ machine.ReadsLike machine' := by
  constructor
  · exact readsLike_of_report_eq hkeypad hkeypad'
  · intro hlike
    delta report CallStack.report Display.report
    simp only [hlike.pc, hlike.index, hlike.registers, hlike.live, hlike.timers, hlike.keypad,
      hlike.size.1, hlike.size.2, hlike.lit, hlike.dirty, hlike.opcode, hlike.awaiting]

/-- Waiting to put a key into V0 is told from not waiting, and a poke into the memory is not told at
all. -/
theorem report_waiting_ne :
    let machine := powerOn 16 (.cycling #[])
    let waiting := { machine with awaiting := some 0 }
    let poked := { machine with memory := machine.memory.set 0x300 9 }
    machine.keypad.Whole ∧ waiting.keypad.Whole ∧ poked.keypad.Whole ∧
      machine.report ≠ waiting.report ∧ machine.report = poked.report := by
  intro machine waiting poked
  have hkeypad : Keypad.released.Whole := Keypad.whole_released
  refine ⟨hkeypad, hkeypad, hkeypad, ?_, ?_⟩
  · intro heq
    have hiff : machine.report = waiting.report ↔ machine.ReadsLike waiting :=
      report_eq_iff hkeypad hkeypad
    exact Option.some_ne_none 0 (hiff.mp heq).awaiting.symm
  · have hiff : machine.report = poked.report ↔ machine.ReadsLike poked :=
      report_eq_iff hkeypad hkeypad
    exact hiff.mpr ⟨rfl, rfl, rfl, rfl, rfl, rfl, ⟨rfl, rfl⟩, rfl, rfl, rfl, rfl⟩

end Machine

end ChipEight
