import ChipEight.CallStack

/-!
The call stack seen as the list of its live addresses: a push adds one at the end, a pop takes the
last one away. Slots above the pointer keep what they held, which the list does not show.
-/

namespace ChipEight.CallStack

/-- There are as many slots as the capacity asks for, and every live address has one of them. -/
structure Stored (stack : CallStack) : Prop where
  size_eq : stack.slots.size = stack.capacity.toNat
  depth_le : stack.depth ≤ stack.slots.size

instance (stack : CallStack) : Decidable stack.Stored :=
  decidable_of_iff (stack.slots.size = stack.capacity.toNat ∧ stack.depth ≤ stack.slots.size)
    ⟨fun h => ⟨h.1, h.2⟩, fun h => ⟨h.size_eq, h.depth_le⟩⟩

def pushed (stack : CallStack) (address : Int) : CallStack :=
  { stack with
    slots := stack.slots.setIfInBounds stack.depth address
    depth := stack.depth + 1 }

def popped (stack : CallStack) : CallStack :=
  { stack with depth := stack.depth - 1 }

variable {stack : CallStack} {address : Int} {traced : Bool}

theorem stored_empty (capacity : Int) : (empty capacity).Stored :=
  ⟨Array.size_replicate, Nat.zero_le _⟩

@[simp]
theorem live_empty (capacity : Int) : (empty capacity).live = [] := rfl

theorem length_live (hstored : stack.Stored) : stack.live.length = stack.depth := by
  simp only [live, List.length_take, Array.length_toList]
  exact Nat.min_eq_left hstored.depth_le

/-- Where there is room there is a slot that is not live. -/
theorem depth_lt_size (hstored : stack.Stored) (hroom : stack.depth < stack.capacity) :
    stack.depth < stack.slots.size := by
  rw [hstored.size_eq]
  omega

theorem stored_pushed (hstored : stack.Stored) (hroom : stack.depth < stack.capacity) :
    (stack.pushed address).Stored where
  size_eq := by
    rw [pushed, Array.size_setIfInBounds]
    exact hstored.size_eq
  depth_le := by
    rw [pushed, Array.size_setIfInBounds]
    exact depth_lt_size hstored hroom

theorem stored_popped (hstored : stack.Stored) : stack.popped.Stored :=
  ⟨hstored.size_eq, Nat.le_trans (Nat.sub_le stack.depth 1) hstored.depth_le⟩

theorem live_pushed (hstored : stack.Stored) (hroom : stack.depth < stack.capacity) :
    (stack.pushed address).live = stack.live ++ [address] := by
  have hslot := depth_lt_size hstored hroom
  rw [live, live, pushed, Array.toList_setIfInBounds, List.take_add_one,
    List.take_set_of_le (Nat.le_refl _)]
  simp [hslot]

/-- What was pushed last is what is popped next. -/
theorem live_eq_popped_append (hstored : stack.Stored) (hdepth : stack.depth ≠ 0) :
    ∃ latest, stack.slots[stack.depth - 1]? = some latest ∧
      stack.live = stack.popped.live ++ [latest] := by
  have hbound := hstored.depth_le
  have hslot : stack.depth - 1 < stack.slots.size := by omega
  refine ⟨stack.slots[stack.depth - 1], Array.getElem?_eq_getElem hslot, ?_⟩
  obtain ⟨below, hbelow⟩ : ∃ below, stack.depth = below + 1 := ⟨stack.depth - 1, by omega⟩
  have hlength : below < stack.slots.size := by omega
  simp only [live, popped, hbelow, Nat.add_sub_cancel, List.take_add_one]
  simp [hlength]

theorem push_of_full (hfull : stack.capacity ≤ stack.depth) :
    push address traced stack = ⟨stack, [], .error (.stackOverflow stack.capacity)⟩ := by
  simp [push, hfull]

theorem push_of_room (hstored : stack.Stored) (hroom : stack.depth < stack.capacity) :
    push address traced stack = ⟨stack.pushed address, [], .ok ()⟩ := by
  have hassign := Store.assign_of_lt (depth_lt_size hstored hroom) address
  simp [push, Int.not_le.mpr hroom, hassign, pushed]

theorem pop_of_empty (hempty : stack.depth = 0) :
    pop traced stack = ⟨stack, [], .error .stackUnderflow⟩ := by
  simp [pop, hempty]

theorem pop_of_slot {latest : Int} (hdepth : stack.depth ≠ 0)
    (hslot : stack.slots[stack.depth - 1]? = some latest) :
    pop traced stack = ⟨stack.popped, [], .ok latest⟩ := by
  obtain ⟨below, hbelow⟩ : ∃ below, stack.depth = below + 1 := ⟨stack.depth - 1, by omega⟩
  rw [hbelow, Nat.add_sub_cancel] at hslot
  obtain ⟨hlt, hlatest⟩ := Array.getElem?_eq_some_iff.mp hslot
  simp [pop, hbelow, Store.item_of_lt hlt, hlatest, popped]

end ChipEight.CallStack
