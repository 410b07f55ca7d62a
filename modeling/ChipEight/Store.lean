import ChipEight.Fault

/-!
Stores: items one after another, found by their positions, where a negative position counts from the
end. An access past either end fails, and a store of bytes takes no number that is not a byte. The
items between two places can be replaced by any number of others, which may change the size.
-/

namespace ChipEight

namespace Byte

/-- A byte for an integer from 0 to 255; no other integer is cut down to one. -/
def ofInt? (value : Int) : Except Fault UInt8 :=
  if 0 ≤ value ∧ value ≤ 255 then .ok (UInt8.ofNat value.toNat) else .error .notAByte

/-- Bytes for a list of integers, if every one of them is in range. -/
def ofInts? : List Int → Except Fault (List UInt8)
  | [] => .ok []
  | value :: rest =>
      match ofInt? value, ofInts? rest with
      | .ok byte, .ok bytes => .ok (byte :: bytes)
      | .error fault, _ => .error fault
      | _, .error fault => .error fault

theorem ofInt?_of_le {value : Int} (h0 : 0 ≤ value) (h1 : value ≤ 255) :
    ofInt? value = .ok (UInt8.ofNat value.toNat) := by
  simp [ofInt?, h0, h1]

theorem ofInt?_eq_error_iff {value : Int} {fault : Fault} :
    ofInt? value = .error fault ↔ ¬(0 ≤ value ∧ value ≤ 255) ∧ fault = .notAByte := by
  unfold ofInt?
  split <;> simp_all [eq_comm]

end Byte

namespace Store

variable {α : Type}

/-- The place that a position names in a store of some size, if it has it. -/
def place? (size : Nat) (position : Int) : Option Nat :=
  if 0 ≤ position then
    if position < size then some position.toNat else none
  else
    if 0 ≤ position + size then some (position + size).toNat else none

/-- Where a range bound falls: at the nearer end if it lies outside the store. -/
def clamp (size : Nat) (bound : Int) : Nat :=
  if 0 ≤ bound then min bound.toNat size else (bound + size).toNat

def item (store : Array α) (position : Int) : Except Fault α :=
  match (place? store.size position).bind fun place => store[place]? with
  | some item => .ok item
  | none => .error .outOfBounds

def assign (store : Array α) (position : Int) (item : α) : Except Fault (Array α) :=
  match place? store.size position with
  | some place => .ok (store.setIfInBounds place item)
  | none => .error .outOfBounds

/-- Put a number at a position of a store of bytes. -/
def assignByte (store : Array UInt8) (position value : Int) : Except Fault (Array UInt8) :=
  (Byte.ofInt? value).bind (assign store position)

/-- Replace the items from one place up to another. -/
def splice (store : Array α) (start stop : Nat) (items : Array α) : Array α :=
  store.extract 0 start ++ items ++ store.extract (max start stop) store.size

variable {store : Array α} {place start stop k : Nat} {items : Array α}

theorem place?_natCast {size : Nat} (hplace : place < size) : place? size place = some place := by
  simp [place?, hplace]

theorem item_of_lt (hplace : place < store.size) : item store place = .ok store[place] := by
  simp [item, place?_natCast hplace, hplace]

theorem assign_of_lt (hplace : place < store.size) (item : α) :
    assign store place item = .ok (store.setIfInBounds place item) := by
  simp [assign, place?_natCast hplace]

theorem assignByte_of_lt {store : Array UInt8} (hplace : place < store.size) {value : Int}
    (hvalue : 0 ≤ value ∧ value ≤ 255) :
    assignByte store place value
      = .ok (store.setIfInBounds place (UInt8.ofNat value.toNat)) := by
  rw [assignByte, Byte.ofInt?_of_le hvalue.1 hvalue.2]
  exact assign_of_lt hplace _

theorem size_of_assign {store' : Array α} {position : Int} {item : α}
    (h : assign store position item = .ok store') : store'.size = store.size := by
  unfold assign at h
  split at h
  · rw [← Except.ok.inj h, Array.size_setIfInBounds]
  · cases h

theorem size_of_assignByte {store store' : Array UInt8} {position value : Int}
    (h : assignByte store position value = .ok store') : store'.size = store.size := by
  unfold assignByte at h
  cases hvalue : Byte.ofInt? value with
  | error fault =>
      rw [hvalue] at h
      cases h
  | ok byte =>
      rw [hvalue] at h
      exact size_of_assign h

theorem getElem?_of_assign {store' : Array α} {item : α} (h : assign store place item = .ok store')
    (hne : place ≠ k) : store'[k]? = store[k]? := by
  unfold assign at h
  split at h
  · rename_i found hfound
    have hplace : found = place := by
      by_cases hbound : place < store.size
      · rw [place?_natCast hbound] at hfound
        exact (Option.some.inj hfound).symm
      · simp [place?, hbound] at hfound
    rw [← Except.ok.inj h, hplace, Array.getElem?_setIfInBounds_ne hne]
  · cases h

theorem getElem?_of_assignByte {store store' : Array UInt8} {value : Int}
    (h : assignByte store place value = .ok store') (hne : place ≠ k) :
    store'[k]? = store[k]? := by
  unfold assignByte at h
  cases hvalue : Byte.ofInt? value with
  | error fault =>
      rw [hvalue] at h
      cases h
  | ok byte =>
      rw [hvalue] at h
      exact getElem?_of_assign h hne

theorem size_splice (hstart : start ≤ stop) (hstop : stop ≤ store.size)
    (hitems : items.size = stop - start) : (splice store start stop items).size = store.size := by
  simp only [splice, Array.size_append, Array.size_extract]
  omega

theorem getElem?_splice_within (hstart : start ≤ store.size) (hk : k < items.size) :
    (splice store start stop items)[start + k]? = items[k]? := by
  have hbefore : (store.extract 0 start).size = start := by
    rw [Array.size_extract]
    omega
  rw [splice, Array.append_assoc, Array.getElem?_append_right (by omega), hbefore,
    Nat.add_sub_cancel_left, Array.getElem?_append_left hk]

theorem getElem?_splice_below (hstart : start ≤ store.size) (hk : k < start) :
    (splice store start stop items)[k]? = store[k]? := by
  have hbefore : k < (store.extract 0 start).size := by
    rw [Array.size_extract]
    omega
  rw [splice, Array.append_assoc, Array.getElem?_append_left hbefore, Array.getElem?_extract]
  simp only [Nat.zero_add, Nat.sub_zero]
  rw [if_pos (by omega)]

theorem getElem?_splice_above (hstart : start ≤ stop) (hstop : stop ≤ store.size)
    (hitems : items.size = stop - start) (hk : stop ≤ k) :
    (splice store start stop items)[k]? = store[k]? := by
  have hbefore : (store.extract 0 start ++ items).size = stop := by
    rw [Array.size_append, Array.size_extract]
    omega
  rw [splice, Array.getElem?_append_right (by omega), hbefore, Nat.max_eq_right hstart,
    Array.getElem?_extract]
  by_cases hbound : k < store.size
  · rw [if_pos (by omega), Nat.add_sub_cancel' hk]
  · rw [if_neg (by omega), Array.getElem?_eq_none (by omega)]

end Store

end ChipEight
