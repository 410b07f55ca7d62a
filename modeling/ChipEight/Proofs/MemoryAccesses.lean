import ChipEight.Proofs.MemoryLemmas
import Mathlib.Data.List.Basic
import Mathlib.Data.List.Induction

/-!
The memory under accesses to any integers whatever. None of them fails: a cell keeps the lowest byte
of what was written to it last, an address stands for all that are congruent to it, and a traced
memory tells of the addresses above it and of no others.
-/

namespace ChipEight

inductive MemoryAccess where
  | read (address : Int)
  | write (address value : Int)

namespace MemoryAccess

def address : MemoryAccess → Int
  | read address => address
  | write address _ => address

/-- What an access writes to the cell that an address names. -/
def writtenAt? (place : Int) : MemoryAccess → Option Int
  | read _ => none
  | write address value => if address ≡ place [ZMOD 0x1000] then some value else none

end MemoryAccess

namespace Memory

/-- Carry out an access; what a read has found is its answer. -/
def perform : MemoryAccess → Step Memory (Option UInt8)
  | .read address => do
      let byte ← read address
      pure (some byte)
  | .write address value => do
      write address value
      pure none

def performAll : List MemoryAccess → Step Memory (List (Option UInt8))
  | [] => pure []
  | access :: rest => do
      let answer ← perform access
      let answers ← performAll rest
      pure (answer :: answers)

def lastWritten? (accesses : List MemoryAccess) (address : Int) : Option Int :=
  (accesses.filterMap (MemoryAccess.writtenAt? address)).getLast?

/-- The byte that a new memory has at an address: the font comes first, then zeros. -/
def initialByte (address : Int) : UInt8 :=
  (fontSprites[(address % 0x1000).toNat]?).getD 0

/-- What is to be found at an address of a memory that was new before some accesses. -/
def expected (accesses : List MemoryAccess) (address : Int) : Int :=
  match lastWritten? accesses address with
  | some value => value % 0x100
  | none => (initialByte address).toNat

/-- A memory was new before some accesses: what it holds, what their answers are, and what was
printed about them. -/
structure KeepsLastWrites (traced : Bool) (accesses : List MemoryAccess)
    (outcome : Outcome Memory (List (Option UInt8))) : Prop where
  succeeds : ∃ answers, outcome.result = .ok answers ∧ answers.length = accesses.length ∧
    ∀ k address, accesses[k]? = some (.read address) →
      ∃ byte, answers[k]? = some (some byte) ∧
        (byte.toNat : Int) = expected (accesses.take k) address
  holds : ∀ address, ((outcome.state.get address).toNat : Int) = expected accesses address
  size : outcome.state.cells.size = memorySize
  lines : outcome.notes.map Note.line =
    if traced then strayLines (accesses.map MemoryAccess.address) else []

/-! ### One access -/

def accessed (memory : Memory) : MemoryAccess → Memory
  | .read _ => memory
  | .write address value => memory.set address value

def answer (memory : Memory) : MemoryAccess → Option UInt8
  | .read address => some (memory.get address)
  | .write _ _ => none

variable {memory : Memory} {traced : Bool}

theorem whole_accessed (hmemory : memory.Whole) (access : MemoryAccess) :
    (memory.accessed access).Whole := by
  cases access with
  | read address => exact hmemory
  | write address value => exact (whole_set_iff address).mpr hmemory

theorem perform_eq (hmemory : memory.Whole) (access : MemoryAccess) :
    perform access traced memory =
      ⟨memory.accessed access, if traced then strays [access.address] else [],
        .ok (memory.answer access)⟩ := by
  cases access with
  | read address =>
      simp [perform, read_eq address traced hmemory, accessed, answer, MemoryAccess.address]
  | write address value =>
      simp [perform, write_eq address traced hmemory, accessed, answer, MemoryAccess.address]

theorem get_accessed (hmemory : memory.Whole) (access : MemoryAccess) (address : Int) :
    (((memory.accessed access).get address).toNat : Int) =
      match access.writtenAt? address with
      | some value => value % 0x100
      | none => (memory.get address).toNat := by
  cases access with
  | read _ => rfl
  | write written value =>
      by_cases hsame : written ≡ address [ZMOD 0x1000]
      · simp only [MemoryAccess.writtenAt?, if_pos hsame]
        exact get_set_same hmemory value hsame
      · simp only [MemoryAccess.writtenAt?, if_neg hsame]
        rw [accessed, get_set_other value hsame]

/-! ### Any number of accesses -/

def behind (memory : Memory) (accesses : List MemoryAccess) : Memory :=
  accesses.foldl accessed memory

def answers (memory : Memory) : List MemoryAccess → List (Option UInt8)
  | [] => []
  | access :: rest => memory.answer access :: (memory.accessed access).answers rest

theorem whole_behind (hmemory : memory.Whole) (accesses : List MemoryAccess) :
    (memory.behind accesses).Whole := by
  induction accesses generalizing memory with
  | nil => exact hmemory
  | cons access rest ih => exact ih (whole_accessed hmemory access)

theorem performAll_eq (hmemory : memory.Whole) (accesses : List MemoryAccess) :
    performAll accesses traced memory =
      ⟨memory.behind accesses,
        if traced then strays (accesses.map MemoryAccess.address) else [],
        .ok (memory.answers accesses)⟩ := by
  induction accesses generalizing memory with
  | nil => simp [performAll, behind, strays, answers]
  | cons access rest ih =>
      have hrest := ih (whole_accessed hmemory access)
      rw [List.map_cons, strays_cons]
      simp [performAll, perform_eq hmemory, hrest, behind, answers]

theorem length_answers (accesses : List MemoryAccess) :
    (memory.answers accesses).length = accesses.length := by
  induction accesses generalizing memory with
  | nil => rfl
  | cons access rest ih => rw [answers, List.length_cons, List.length_cons, ih]

/-- Every access meets the memory that the ones before it have left. -/
theorem getElem?_answers (accesses : List MemoryAccess) (k : Nat) :
    (memory.answers accesses)[k]?
      = (accesses[k]?).map (memory.behind (accesses.take k)).answer := by
  induction accesses generalizing memory k with
  | nil => rfl
  | cons access rest ih =>
      cases k with
      | zero => rfl
      | succ k =>
          rw [answers, List.getElem?_cons_succ, List.getElem?_cons_succ, List.take_succ_cons, ih]
          rfl

theorem lastWritten?_concat (accesses : List MemoryAccess) (access : MemoryAccess)
    (address : Int) :
    lastWritten? (accesses ++ [access]) address
      = (access.writtenAt? address).or (lastWritten? accesses address) := by
  rw [lastWritten?, List.filterMap_append, List.getLast?_append, lastWritten?]
  cases hwritten : access.writtenAt? address with
  | none => simp [hwritten]
  | some value => simp [hwritten]

theorem get_behind (hmemory : memory.Whole) (accesses : List MemoryAccess) (address : Int) :
    (((memory.behind accesses).get address).toNat : Int) =
      match lastWritten? accesses address with
      | some value => value % 0x100
      | none => (memory.get address).toNat := by
  -- From the back: the last access decides, unless it leaves the cell alone.
  induction accesses using List.reverseRecOn with
  | nil => rfl
  | append_singleton accesses access ih =>
      rw [behind, List.foldl_concat, ← behind, get_accessed (whole_behind hmemory accesses),
        lastWritten?_concat, ih]
      cases access.writtenAt? address with
      | none => rfl
      | some value => rfl

/-! ### A new memory -/

theorem get_initial_eq_initialByte (address : Int) :
    initial.get address = initialByte address := by
  have hplace : cellOf address = (address % 0x1000).toNat := by
    have hmask := Bits.mask_addressMask address
    simp only [cellOf]
    omega
  rw [get, getElem?_cells_initial (cellOf_lt address), hplace, Option.getD_some, initialByte]

theorem get_behind_initial (accesses : List MemoryAccess) (address : Int) :
    (((initial.behind accesses).get address).toNat : Int) = expected accesses address := by
  rw [get_behind whole_initial, get_initial_eq_initialByte]
  rfl

/-- Whatever is read from and written to a new memory, every read finds the lowest byte of the last
value written to its cell, or else what the memory began with, and the accesses from above the
memory, and only these, are reported one after the other. -/
theorem performAll_keepsLastWrites (traced : Bool) (accesses : List MemoryAccess) :
    KeepsLastWrites traced accesses (performAll accesses traced initial) := by
  rw [performAll_eq whole_initial]
  refine ⟨⟨_, rfl, length_answers accesses, fun k address hread => ?_⟩,
    get_behind_initial accesses, whole_behind whole_initial accesses, ?_⟩
  · refine ⟨(initial.behind (accesses.take k)).get address, ?_, get_behind_initial _ address⟩
    rw [getElem?_answers, hread]
    rfl
  · cases traced with
    | false => rfl
    | true => exact map_line_strays _

end Memory

end ChipEight
