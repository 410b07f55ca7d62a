import ChipEight.Event
import ChipEight.Proofs.Masks
import Mathlib.Data.List.FinRange

/-!
Keypads with all their keys, each of them up or down. Pressing and releasing never fail and change
one key, looking never fails for a number that is not negative, and the events of a keyboard come to
presses and releases.
-/

namespace ChipEight

namespace Keypad

structure Whole (keypad : Keypad) : Prop where
  size_eq : keypad.keys.size = keyCount
  bits : ∀ key ∈ keypad.keys, IsBit key

instance (keypad : Keypad) : Decidable keypad.Whole :=
  decidable_of_iff
    (keypad.keys.size = keyCount ∧ (keypad.keys.toList.all fun key => decide (IsBit key)) = true)
    ⟨fun h => ⟨h.1, all_isBit_iff.mp h.2⟩, fun h => ⟨h.size_eq, all_isBit_iff.mpr h.bits⟩⟩

def isDown (keypad : Keypad) (key : Fin 16) : Bool :=
  (keypad.keys[key.val]?).getD 0 == 1

/-- The keypad after the key that a number names has been moved. -/
def moved (keypad : Keypad) (number : Int) (down : Bool) : Keypad :=
  ⟨keypad.keys.setIfInBounds (keyOf number) down.toUInt8⟩

def AllUp (keypad : Keypad) : Prop :=
  ∀ key : Fin 16, keypad.isDown key = false

instance (keypad : Keypad) : Decidable keypad.AllUp :=
  inferInstanceAs (Decidable (∀ key : Fin 16, keypad.isDown key = false))

def IsLowest (keypad : Keypad) (key : Fin 16) : Prop :=
  keypad.isDown key = true ∧ ∀ lower < key, keypad.isDown lower = false

/-- A number names a key, and the key is down. -/
def Holds (keypad : Keypad) (number : Nat) : Prop :=
  ∃ key : Fin 16, key.val = number ∧ keypad.isDown key = true

instance (keypad : Keypad) (number : Nat) : Decidable (keypad.Holds number) :=
  inferInstanceAs (Decidable (∃ key : Fin 16, key.val = number ∧ keypad.isDown key = true))

def lowest (keypad : Keypad) : Option (Fin 16) :=
  (List.finRange 16).find? keypad.isDown

variable {keypad keypad' : Keypad} {key : Fin 16} {traced : Bool}

theorem whole_released : released.Whole where
  size_eq := Array.size_replicate
  bits := fun _ hkey => .inl (Array.mem_replicate.mp hkey).2

theorem keyOf_lt (number : Int) : keyOf number < keyCount := by
  have hkey := Bits.mask_le number nibbleMask
  simp only [keyOf, nibbleMask, keyCount] at *
  omega

theorem keyOf_val (key : Fin 16) : keyOf key.val = key.val := by
  revert key
  decide

theorem val_lt_size (hkeypad : keypad.Whole) (key : Fin 16) : key.val < keypad.keys.size := by
  rw [hkeypad.size_eq]
  exact key.isLt

theorem getElem_keys (hkeypad : keypad.Whole) {k : Nat} (hk : k < 16)
    (hplace : k < keypad.keys.size) : keypad.keys[k] = (keypad.isDown ⟨k, hk⟩).toUInt8 := by
  rw [isDown, Array.getElem?_eq_getElem hplace, Option.getD_some]
  exact (hkeypad.bits _ (Array.getElem_mem hplace)).eq_toUInt8

theorem ext_isDown (hkeypad : keypad.Whole) (hkeypad' : keypad'.Whole)
    (hkeys : ∀ key, keypad.isDown key = keypad'.isDown key) : keypad = keypad' := by
  have hsizes : keypad.keys.size = keypad'.keys.size :=
    hkeypad.size_eq.trans hkeypad'.size_eq.symm
  have harrays : keypad.keys = keypad'.keys := by
    refine Array.ext hsizes fun k hplace hplace' => ?_
    have hk : k < 16 := hplace.trans_eq hkeypad.size_eq
    rw [getElem_keys hkeypad hk, getElem_keys hkeypad' hk, hkeys]
  cases keypad
  cases keypad'
  exact congrArg Keypad.mk harrays

/-! ### Moving keys -/

theorem whole_moved (hkeypad : keypad.Whole) (number : Int) (down : Bool) :
    (keypad.moved number down).Whole where
  size_eq := by
    rw [moved, Array.size_setIfInBounds]
    exact hkeypad.size_eq
  bits := isBit_of_mem_set hkeypad.bits (isBit_toUInt8 down)

theorem isDown_moved (hkeypad : keypad.Whole) (moved key : Fin 16) (down : Bool) :
    (keypad.moved moved.val down).isDown key = if moved = key then down else keypad.isDown key := by
  rw [isDown, Keypad.moved, keyOf_val]
  by_cases hsame : moved = key
  · subst hsame
    rw [if_pos rfl, Array.getElem?_setIfInBounds_self_of_lt (val_lt_size hkeypad moved),
      Option.getD_some]
    cases down <;> rfl
  · have hplaces : moved.val ≠ key.val := fun heq => hsame (Fin.ext heq)
    rw [if_neg hsame, Array.getElem?_setIfInBounds_ne hplaces, isDown]

theorem put_eq (hkeypad : keypad.Whole) (number : Int) (down : Bool) :
    put number down.toNat traced keypad = ⟨keypad.moved number down, [], .ok ()⟩ := by
  have hplace : keyOf number < keypad.keys.size := by
    rw [hkeypad.size_eq]
    exact keyOf_lt number
  have hbit : 0 ≤ (down.toNat : Int) ∧ (down.toNat : Int) ≤ 255 := by cases down <;> decide
  have hbyte : UInt8.ofNat down.toNat = down.toUInt8 := by cases down <;> rfl
  simp [put, Store.assignByte_of_lt hplace hbit, hbyte, moved]

theorem press_eq (hkeypad : keypad.Whole) (number : Int) :
    press number traced keypad = ⟨keypad.moved number true, [], .ok ()⟩ :=
  put_eq hkeypad number true

theorem release_eq (hkeypad : keypad.Whole) (number : Int) :
    release number traced keypad = ⟨keypad.moved number false, [], .ok ()⟩ :=
  put_eq hkeypad number false

/-! ### Looking at keys -/

theorem get_eq_holds (hkeypad : keypad.Whole) (number : Nat) :
    keypad.get number = .ok (decide (keypad.Holds number)) := by
  by_cases hkey : number < 16
  · have hplace := val_lt_size hkeypad ⟨number, hkey⟩
    have hholds : keypad.Holds number ↔ keypad.isDown ⟨number, hkey⟩ = true := by
      constructor
      · rintro ⟨key, rfl, hdown⟩
        exact hdown
      · exact fun hdown => ⟨⟨number, hkey⟩, rfl, hdown⟩
    have hbound : (number : Int) < keyCount := by exact_mod_cast hkey
    have hitem : Store.item keypad.keys number = .ok keypad.keys[number] :=
      Store.item_of_lt hplace
    rw [get, if_pos hbound, hitem, getElem_keys hkeypad hkey]
    simp [Except.map, hholds, toUInt8_beq_one]
  · have hnone : ¬keypad.Holds number := by
      rintro ⟨key, rfl, -⟩
      exact hkey key.isLt
    have hbound : ¬(number : Int) < keyCount := by exact_mod_cast hkey
    rw [get, if_neg hbound, decide_eq_false hnone]

theorem firstOf_eq (hkeypad : keypad.Whole) (keys : List (Fin 16)) :
    keypad.firstOf (keys.map Fin.val) = .ok ((keys.find? keypad.isDown).map Fin.val) := by
  induction keys with
  | nil => rfl
  | cons key rest ih =>
      have hplace := val_lt_size hkeypad key
      rw [List.map_cons, firstOf, Store.item_of_lt hplace, getElem_keys hkeypad key.isLt]
      simp only [toUInt8_bne_zero]
      cases hdown : keypad.isDown key with
      | false => simpa [hdown] using ih
      | true => simp [hdown]

theorem first_eq (hkeypad : keypad.Whole) : keypad.first = .ok (keypad.lowest.map Fin.val) := by
  have hkeys : List.range keyCount = (List.finRange 16).map Fin.val :=
    List.map_coe_finRange_eq_range.symm
  rw [first, hkeys, firstOf_eq hkeypad, lowest]

theorem lowest_eq_none_iff : keypad.lowest = none ↔ keypad.AllUp := by
  simp [lowest, AllUp, List.find?_eq_none]

theorem isLowest_of_lowest (hkey : keypad.lowest = some key) : keypad.IsLowest key := by
  rw [lowest, List.find?_eq_some_iff_getElem] at hkey
  obtain ⟨hdown, place, hplace, heq, hbelow⟩ := hkey
  rw [List.getElem_finRange] at heq
  refine ⟨hdown, fun lower hlower => ?_⟩
  have hlt : lower.val < place := by
    rw [← heq] at hlower
    exact hlower
  simpa using hbelow lower.val hlt

theorem lowest_eq_some_iff : keypad.lowest = some key ↔ keypad.IsLowest key := by
  refine ⟨isLowest_of_lowest, fun hlowest => ?_⟩
  -- The first key that is down is neither above the lowest one nor below it.
  cases hfirst : keypad.lowest with
  | none =>
      have hup := lowest_eq_none_iff.mp hfirst key
      rw [hlowest.1] at hup
      cases hup
  | some key' =>
      obtain ⟨hdown', hbelow'⟩ := isLowest_of_lowest hfirst
      rcases Nat.lt_trichotomy key.val key'.val with hlt | heq | hlt
      · have hup := hbelow' key hlt
        rw [hlowest.1] at hup
        cases hup
      · rw [Fin.ext heq]
      · have hup := hlowest.2 key' hlt
        rw [hdown'] at hup
        cases hup

theorem untouched_iff (hkeypad : keypad.Whole) : keypad.untouched = true ↔ keypad.AllUp := by
  rw [untouched, Bool.not_eq_true', Array.any_eq_false]
  constructor
  · intro hup key
    have hplace := val_lt_size hkeypad key
    have hdark := hup key.val hplace
    rw [getElem_keys hkeypad key.isLt, toUInt8_bne_zero] at hdark
    exact Bool.eq_false_iff.mpr hdark
  · intro hup k hplace
    have hk : k < 16 := hplace.trans_eq hkeypad.size_eq
    rw [getElem_keys hkeypad hk, hup]
    decide

end Keypad

namespace Event

def applied (keypad : Keypad) : Event → Keypad
  | keyDown code => (keyOf? code).elim keypad fun key => keypad.moved key true
  | keyUp code => (keyOf? code).elim keypad fun key => keypad.moved key false
  | quit | other => keypad

variable {keypad : Keypad} {traced : Bool}

theorem whole_applied (hkeypad : keypad.Whole) (event : Event) : (event.applied keypad).Whole := by
  cases event with
  | quit | other => exact hkeypad
  | keyDown code | keyUp code =>
      rw [applied]
      cases keyOf? code with
      | none => exact hkeypad
      | some key => exact Keypad.whole_moved hkeypad key _

theorem apply_eq (hkeypad : keypad.Whole) (event : Event) :
    event.apply traced keypad = ⟨event.applied keypad, [], .ok ()⟩ := by
  cases event with
  | quit | other => rfl
  | keyDown code =>
      rw [apply, applied]
      cases keyOf? code with
      | none => rfl
      | some key => exact Keypad.press_eq hkeypad key
  | keyUp code =>
      rw [apply, applied]
      cases keyOf? code with
      | none => rfl
      | some key => exact Keypad.release_eq hkeypad key

theorem whole_foldl_applied (hkeypad : keypad.Whole) (events : List Event) :
    (events.foldl applied keypad).Whole := by
  induction events generalizing keypad with
  | nil => exact hkeypad
  | cons event rest ih => exact ih (whole_applied hkeypad event)

theorem applyAll_eq (hkeypad : keypad.Whole) (events : List Event) :
    applyAll events traced keypad = ⟨events.foldl applied keypad, [], .ok ()⟩ := by
  induction events generalizing keypad with
  | nil => rfl
  | cons event rest ih =>
      simp [applyAll, apply_eq hkeypad event, ih (whole_applied hkeypad event)]

end Event

end ChipEight
