import ChipEight.Proofs.CallStackLemmas
import ChipEight.Proofs.StepRules

/-!
The call stack against a plain list of addresses with a limit. Operations may fail and others follow
them all the same; each comes to the same on both sides. There are as many slots as the capacity
allows, from the beginning and for ever, so none is ever missing, and what a return leaves behind
above the pointer is never seen again.
-/

namespace ChipEight

inductive StackOperation where
  | push (address : Int)
  | pop

/-- Carry out an operation; what is popped is its answer. -/
def StackOperation.perform {σ : Type} (push : Int → Step σ Unit) (pop : Step σ Int) :
    StackOperation → Step σ (Option Int)
  | .push address => do
      push address
      pure none
  | .pop => do
      let latest ← pop
      pure (some latest)

theorem StackOperation.agree_perform {σ τ : Type} {R : σ → τ → Prop} {push : Int → Step σ Unit}
    {push' : Int → Step τ Unit} {pop : Step σ Int} {pop' : Step τ Int}
    (hpush : ∀ address, Step.Agree R Eq (push address) (push' address))
    (hpop : Step.Agree R Eq pop pop') (operation : StackOperation) :
    Step.Agree R Eq (operation.perform push pop) (operation.perform push' pop') := by
  cases operation with
  | push address => exact .bindSame (hpush address) fun _ => .pure rfl
  | pop => exact .bindSame hpop fun _ => .pure rfl

/-! ### The list -/

namespace BoundedList

def push (capacity address : Int) : Step (List Int) Unit := do
  let addresses ← Step.get
  if max capacity 0 ≤ addresses.length then
    Step.fail (.stackOverflow capacity)
  else
    Step.modify (· ++ [address])

def pop : Step (List Int) Int := do
  let addresses ← Step.get
  match addresses.getLast? with
  | none => Step.fail .stackUnderflow
  | some latest =>
      Step.modify List.dropLast
      pure latest

def perform (capacity : Int) : StackOperation → Step (List Int) (Option Int) :=
  StackOperation.perform (push capacity) pop

def Fails (capacity : Int) (fault : Fault) : Prop :=
  fault = .stackOverflow capacity ∨ fault = .stackUnderflow

variable {capacity : Int} {addresses : List Int} {traced : Bool}

theorem push_of_full (address : Int) (hfull : max capacity 0 ≤ addresses.length) :
    push capacity address traced addresses = ⟨addresses, [], .error (.stackOverflow capacity)⟩ := by
  simp only [push, Step.get_bind, if_pos hfull, Step.fail_apply]

theorem push_of_room (address : Int) (hroom : ¬max capacity 0 ≤ addresses.length) :
    push capacity address traced addresses = ⟨addresses ++ [address], [], .ok ()⟩ := by
  simp only [push, Step.get_bind, if_neg hroom, Step.modify_apply]

theorem pop_nil : pop traced [] = ⟨[], [], .error .stackUnderflow⟩ := rfl

theorem pop_concat (below : List Int) (latest : Int) :
    pop traced (below ++ [latest]) = ⟨below, [], .ok latest⟩ := by
  rw [pop, Step.get_bind]
  simp

theorem keeps_perform (capacity : Int) (operation : StackOperation) :
    Step.Keeps (fun _ => True) (Fails capacity) (perform capacity operation) := by
  cases operation with
  | push address =>
      refine .bind (fun traced addresses _ => ⟨trivial, fun fault hfault => ?_⟩) fun _ => .pure _
      by_cases hfull : max capacity 0 ≤ addresses.length
      · rw [push_of_full address hfull] at hfault
        exact .inl (Except.error.inj hfault).symm
      · rw [push_of_room address hfull] at hfault
        cases hfault
  | pop =>
      refine .bind (fun traced addresses _ => ⟨trivial, fun fault hfault => ?_⟩) fun _ => .pure _
      rcases addresses.eq_nil_or_concat with rfl | ⟨below, latest, rfl⟩
      · exact .inr (Except.error.inj hfault).symm
      · rw [List.concat_eq_append, pop_concat] at hfault
        cases hfault

end BoundedList

namespace CallStack

def perform : StackOperation → Step CallStack (Option Int) :=
  StackOperation.perform push pop

/-- The live addresses of a stack are those of a list that keeps to the limit. -/
structure Represents (capacity : Int) (stack : CallStack) (addresses : List Int) : Prop where
  capacity_eq : stack.capacity = capacity
  stored : stack.Stored
  live_eq : stack.live = addresses

variable {stack : CallStack} {capacity address : Int} {addresses : List Int} {traced : Bool}

theorem perform_push_of_full (address : Int) (hfull : stack.capacity ≤ stack.depth) :
    perform (.push address) traced stack
      = ⟨stack, [], .error (.stackOverflow stack.capacity)⟩ := by
  simp [perform, StackOperation.perform, push_of_full hfull]

theorem perform_push_of_room (address : Int) (hstored : stack.Stored)
    (hroom : stack.depth < stack.capacity) :
    perform (.push address) traced stack = ⟨stack.pushed address, [], .ok none⟩ := by
  simp [perform, StackOperation.perform, push_of_room hstored hroom]

theorem perform_pop_of_empty (hempty : stack.depth = 0) :
    perform .pop traced stack = ⟨stack, [], .error .stackUnderflow⟩ := by
  simp [perform, StackOperation.perform, pop_of_empty hempty]

/-! ### One operation -/

theorem represents_empty (capacity : Int) : Represents capacity (empty capacity) [] :=
  ⟨rfl, stored_empty capacity, live_empty capacity⟩

namespace Represents

theorem length_eq (h : Represents capacity stack addresses) : addresses.length = stack.depth := by
  rw [← h.live_eq, length_live h.stored]

theorem size_eq (h : Represents capacity stack addresses) :
    (stack.slots.size : Int) = max capacity 0 := by
  rw [h.stored.size_eq, h.capacity_eq]
  omega

theorem length_le (h : Represents capacity stack addresses) :
    (addresses.length : Int) ≤ max capacity 0 := by
  rw [h.length_eq, ← h.size_eq]
  exact_mod_cast h.stored.depth_le

theorem full_iff (h : Represents capacity stack addresses) :
    stack.capacity ≤ stack.depth ↔ max capacity 0 ≤ addresses.length := by
  rw [h.capacity_eq, h.length_eq]
  omega

protected theorem pushed (h : Represents capacity stack addresses)
    (hroom : stack.depth < stack.capacity) :
    Represents capacity (stack.pushed address) (addresses ++ [address]) where
  capacity_eq := h.capacity_eq
  stored := stored_pushed h.stored hroom
  live_eq := by rw [live_pushed h.stored hroom, h.live_eq]

/-- What comes off a stack is the end of its list. -/
theorem exists_latest (h : Represents capacity stack addresses) (traced : Bool)
    (hdepth : stack.depth ≠ 0) :
    ∃ below latest, addresses = below ++ [latest] ∧
      pop traced stack = ⟨stack.popped, [], .ok latest⟩ ∧
      Represents capacity stack.popped below := by
  obtain ⟨latest, hslot, hlive⟩ := live_eq_popped_append h.stored hdepth
  refine ⟨stack.popped.live, latest, ?_, pop_of_slot hdepth hslot, ?_⟩
  · rw [← h.live_eq, hlive]
  · exact ⟨h.capacity_eq, stored_popped h.stored, rfl⟩

end Represents

theorem agree_push_list (capacity address : Int) :
    Step.Agree (Represents capacity) Eq (push address) (BoundedList.push capacity address) := by
  intro traced traced' stack addresses h
  by_cases hfull : stack.capacity ≤ stack.depth
  · rw [push_of_full hfull, BoundedList.push_of_full address (h.full_iff.mp hfull), h.capacity_eq]
    exact ⟨h, rfl⟩
  · rw [push_of_room h.stored (Int.not_le.mp hfull),
      BoundedList.push_of_room address (mt h.full_iff.mpr hfull)]
    exact ⟨h.pushed (Int.not_le.mp hfull), rfl⟩

theorem agree_pop_list (capacity : Int) :
    Step.Agree (Represents capacity) Eq pop BoundedList.pop := by
  intro traced traced' stack addresses h
  by_cases hempty : stack.depth = 0
  · obtain rfl : addresses = [] := List.length_eq_zero_iff.mp (h.length_eq.trans hempty)
    rw [pop_of_empty hempty, BoundedList.pop_nil]
    exact ⟨h, rfl⟩
  · obtain ⟨below, latest, rfl, hpop, hpopped⟩ := h.exists_latest traced hempty
    rw [hpop, BoundedList.pop_concat]
    exact ⟨hpopped, rfl⟩

/-! ### Any number of operations -/

/-- A stack looks and acts like a list of addresses that is full at the capacity. -/
structure ActsAs (capacity : Int) (traced : Bool) (stack : CallStack) (addresses : List Int) :
    Prop where
  take_eq : stack.slots.toList.take stack.depth = addresses
  depth_eq : stack.depth = addresses.length
  length_le : (addresses.length : Int) ≤ max capacity 0
  size_eq : (stack.slots.size : Int) = max capacity 0
  overflow_iff : ∀ address,
    (push address traced stack).result = .error (.stackOverflow capacity) ↔
      max capacity 0 ≤ addresses.length
  pushes : ∀ address, addresses.length < max capacity 0 →
    stack.depth < stack.slots.size ∧
      ∃ after, push address traced stack = ⟨after, [], .ok ()⟩ ∧
        after.live = addresses ++ [address] ∧
        after.slots.toList = stack.slots.toList.set stack.depth address
  underflow_iff : (pop traced stack).result = .error .stackUnderflow ↔ addresses = []
  pops : ∀ below latest, addresses = below ++ [latest] →
    stack.slots[below.length]? = some latest ∧
      ∃ after, pop traced stack = ⟨after, [], .ok latest⟩ ∧ after.live = below ∧
        after.slots = stack.slots
  fails_intact : ∀ operation fault, (perform operation traced stack).result = .error fault →
    BoundedList.Fails capacity fault ∧ (perform operation traced stack).state = stack

theorem Represents.actsAs (h : Represents capacity stack addresses) (traced : Bool) :
    ActsAs capacity traced stack addresses where
  take_eq := h.live_eq
  depth_eq := h.length_eq.symm
  length_le := h.length_le
  size_eq := h.size_eq
  overflow_iff address := by
    rw [← h.full_iff]
    by_cases hfull : stack.capacity ≤ stack.depth
    · rw [push_of_full hfull, ← h.capacity_eq]
      exact iff_of_true rfl hfull
    · rw [push_of_room h.stored (Int.not_le.mp hfull)]
      exact iff_of_false (by simp) hfull
  pushes address hlength := by
    have hroom : stack.depth < stack.capacity :=
      Int.not_le.mp (mt h.full_iff.mp (Int.not_le.mpr hlength))
    exact ⟨depth_lt_size h.stored hroom, stack.pushed address, push_of_room h.stored hroom,
      (h.pushed hroom).live_eq, Array.toList_setIfInBounds⟩
  underflow_iff := by
    by_cases hempty : stack.depth = 0
    · have hnil : addresses = [] := List.length_eq_zero_iff.mp (h.length_eq.trans hempty)
      simp [pop_of_empty hempty, hnil]
    · obtain ⟨below, latest, rfl, hpop, -⟩ := h.exists_latest traced hempty
      simp [hpop]
  pops below latest hlive := by
    have hdepth : stack.depth = below.length + 1 := by
      rw [← h.length_eq, hlive, List.length_append, List.length_singleton]
    obtain ⟨below', latest', hlive', hpop, hpopped⟩ := h.exists_latest traced (by omega)
    obtain ⟨rfl, rfl⟩ : below' = below ∧ latest' = latest := by
      simpa using hlive'.symm.trans hlive
    refine ⟨?_, stack.popped, hpop, hpopped.live_eq, rfl⟩
    have htop : stack.live[below'.length]? = stack.slots.toList[below'.length]? :=
      List.getElem?_take_of_lt (by omega)
    rw [← Array.getElem?_toList, ← htop, h.live_eq, hlive, List.getElem?_concat_length]
  fails_intact operation fault hfault := by
    cases operation with
    | push address =>
        by_cases hfull : stack.capacity ≤ stack.depth
        · rw [perform_push_of_full address hfull, h.capacity_eq] at hfault ⊢
          exact ⟨.inl (Except.error.inj hfault).symm, rfl⟩
        · rw [perform_push_of_room address h.stored (Int.not_le.mp hfull)] at hfault
          cases hfault
    | pop =>
        by_cases hempty : stack.depth = 0
        · rw [perform_pop_of_empty hempty] at hfault ⊢
          exact ⟨.inr (Except.error.inj hfault).symm, rfl⟩
        · obtain ⟨below, latest, -, hpop, -⟩ := h.exists_latest traced hempty
          simp [perform, StackOperation.perform, hpop] at hfault

/-- Whatever is pushed and popped from the empty stack on, and whatever fails on the way, each
operation comes to what it comes to on the list, and in the end stack and list are still alike. -/
theorem refines_boundedList (capacity : Int) (traced : Bool) (operations : List StackOperation) :
    let outcome := Step.attempts perform operations traced (empty capacity)
    let outcome' := Step.attempts (BoundedList.perform capacity) operations traced []
    (∃ results, outcome.result = .ok results ∧ outcome'.result = .ok results ∧
      results.length = operations.length ∧
      ∀ fault, .error fault ∈ results → BoundedList.Fails capacity fault) ∧
    ActsAs capacity traced outcome.state outcome'.state := by
  intro outcome outcome'
  obtain ⟨hreached, hresults⟩ :=
    Step.Agree.attempts
      (StackOperation.agree_perform (agree_push_list capacity) (agree_pop_list capacity))
      operations traced traced _ _ (represents_empty capacity)
  obtain ⟨results, hresult, hlength, hfaults⟩ :=
    Step.Keeps.exists_attempts (BoundedList.keeps_perform capacity) operations traced [] trivial
  refine ⟨⟨results, ?_, hresult, hlength, hfaults⟩, hreached.actsAs traced⟩
  exact (resultsAgree_eq_iff.mp hresults).trans hresult

end CallStack

end ChipEight
