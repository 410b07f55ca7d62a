import ChipEight.Proofs.Footprint

/-!
The arithmetic that sets VF. The result goes into VX first and the flag into VF after it, and both
are computed from the registers before the instruction; so whichever registers the operands are, the
flag is right, and the result is unless VX is VF, where it is lost.
-/

namespace ChipEight

/-- The last digits of the words `8XYn` that set a flag. -/
def flagDigits : List Nat :=
  [0x4, 0x5, 0x6, 0x7, 0xE]

/-- The law between the operands, the flag and the result of `8XYn`. -/
def FlagLaw (digit : Nat) (a b flag result : Int) : Prop :=
  match digit with
  | 0x4 => 256 * flag + result = a + b
  | 0x5 => result = a - b + 256 * (1 - flag)
  | 0x6 => 2 * result + flag = a
  | 0x7 => result = b - a + 256 * (1 - flag)
  | 0xE => 256 * flag + result = 2 * a
  | _ => False

/-- The carry, the missing borrow or the bit that is shifted out. -/
def flagOf (digit : Nat) (a b : Int) : Int :=
  match digit with
  | 0x4 => if 255 < a + b then 1 else 0
  | 0x5 => if b ≤ a then 1 else 0
  | 0x6 => a % 2
  | 0x7 => if a ≤ b then 1 else 0
  | 0xE => if 128 ≤ a then 1 else 0
  | _ => 0

theorem lt_of_mem_flagDigits {digit : Nat} (hdigit : digit ∈ flagDigits) : digit < 0x10 := by
  have hall : ∀ digit ∈ flagDigits, digit < 0x10 := by decide
  exact hall digit hdigit

namespace FlagLaw

section Unique

variable {digit : Nat} {a b flag result : Int}

theorem mem_flagDigits (h : FlagLaw digit a b flag result) : digit ∈ flagDigits := by
  unfold FlagLaw at h
  split at h
  all_goals simp_all [flagDigits]

/-- The law leaves one choice for the flag, whatever comes of the result. -/
theorem flag_eq (h : FlagLaw digit a b flag result) (hflag : 0 ≤ flag ∧ flag ≤ 1)
    (hresult : IsByte result) : flag = flagOf digit a b := by
  unfold FlagLaw at h
  unfold flagOf
  split at h
  · split <;> omega
  · split <;> omega
  · omega
  · split <;> omega
  · split <;> omega
  · exact h.elim

theorem result_eq {result' : Int} (h : FlagLaw digit a b flag result)
    (h' : FlagLaw digit a b flag result') : result = result' := by
  have hdigit := h.mem_flagDigits
  simp only [flagDigits, List.mem_cons, List.not_mem_nil, or_false] at hdigit
  rcases hdigit with rfl | rfl | rfl | rfl | rfl
  all_goals
    simp only [FlagLaw] at h h'
    omega

theorem of_shift (h : FlagLaw digit a b flag result) (hdigit : digit ∈ [0x6, 0xE]) (b' : Int) :
    FlagLaw digit a b' flag result ∧ flagOf digit a b = flagOf digit a b' := by
  simp only [List.mem_cons, List.not_mem_nil, or_false] at hdigit
  rcases hdigit with rfl | rfl
  · exact ⟨h, rfl⟩
  · exact ⟨h, rfl⟩

end Unique

/-! ### The results and the flags that are put -/

variable {a b : Nat}

theorem of_add (ha : a ≤ 255) (hb : b ≤ 255) :
    FlagLaw 0x4 a b (decide (0xFF < a + b)).toNat (Bits.mask (a + b : Int) byteMask) := by
  rw [FlagLaw, Bits.mask_byteMask]
  by_cases hcarry : 0xFF < a + b
  · rw [decide_eq_true hcarry, Bool.toNat_true]
    omega
  · rw [decide_eq_false hcarry, Bool.toNat_false]
    omega

theorem of_subtract (ha : a ≤ 255) (hb : b ≤ 255) :
    FlagLaw 0x5 a b (decide (b ≤ a)).toNat (Bits.mask (a - b : Int) byteMask) := by
  rw [FlagLaw, Bits.mask_byteMask]
  by_cases hborrow : b ≤ a
  · rw [decide_eq_true hborrow, Bool.toNat_true]
    omega
  · rw [decide_eq_false hborrow, Bool.toNat_false]
    omega

theorem of_subtractFrom (ha : a ≤ 255) (hb : b ≤ 255) :
    FlagLaw 0x7 a b (decide (a ≤ b)).toNat (Bits.mask (b - a : Int) byteMask) :=
  of_subtract hb ha

theorem of_shiftRight (a b : Nat) : FlagLaw 0x6 a b (a &&& 1 == 1).toNat (a >>> 1 : Nat) := by
  rw [FlagLaw, Nat.and_one_is_mod, Nat.shiftRight_eq_div_pow]
  by_cases hodd : a % 2 = 1
  · rw [beq_iff_eq.mpr hodd, Bool.toNat_true]
    omega
  · rw [beq_eq_false_iff_ne.mpr hodd, Bool.toNat_false]
    omega

theorem of_shiftLeft (ha : a ≤ 255) (b : Nat) :
    FlagLaw 0xE a b (a &&& 0x80 != 0).toNat (Bits.mask (a <<< 1 : Nat) byteMask) := by
  have htop : (a &&& 0x80 != 0) = decide (128 ≤ a) := by
    have hbit : a &&& 0x80 = (a.testBit 7).toNat * 2 ^ 7 := Nat.and_two_pow a 7
    rw [hbit, Nat.testBit_eq_decide_div_mod_eq]
    by_cases hcarry : 128 ≤ a
    · have hone : a / 128 % 2 = 1 := by omega
      simp [hone, hcarry]
    · have hzero : a / 128 % 2 = 0 := by omega
      simp [hzero, hcarry]
  rw [FlagLaw, htop, Bits.mask_byteMask, Nat.shiftLeft_eq]
  by_cases hcarry : 128 ≤ a
  · rw [decide_eq_true hcarry, Bool.toNat_true]
    omega
  · rw [decide_eq_false hcarry, Bool.toNat_false]
    omega

end FlagLaw

namespace Machine

/-- The registers behind a word `8XYn` that sets a flag. -/
structure ComesToFlag (digit : Nat) (x y : Fin 16) (before after : Registers) : Prop where
  law : ∃ result : Nat, result ≤ 255 ∧
    FlagLaw digit (before.get x) (before.get y) (after.get flagRegister) result ∧
    (x ≠ flagRegister → after.get x = result)
  flag_le : after.get flagRegister ≤ 1
  flag_eq : after.get flagRegister = flagOf digit (before.get x) (before.get y)
  kept : ∀ z, z ≠ x → z ≠ flagRegister → after.get z = before.get z

variable {machine : Machine} {traced : Bool} {i : Instruction} {digit : Nat} {x y : Fin 16}

theorem comesToFlag_written {registers : Registers} {value : Int} {flag : Bool}
    (hregisters : registers.Whole) (hvalue : IsByte value)
    (hlaw : FlagLaw digit (registers.get x) (registers.get y) flag.toNat value) :
    ComesToFlag digit x y registers
      ((registers.written x value).written flagRegister (if flag then 1 else 0)) := by
  have hwritten : (registers.written x value).Whole := Registers.whole_written_iff.mpr hregisters
  have hflag := Registers.get_written_flag hwritten flag
  have hrange : 0 ≤ (flag.toNat : Int) ∧ (flag.toNat : Int) ≤ 1 := by
    have := flag.toNat_le
    omega
  refine ⟨⟨value.toNat, by omega, ?_, fun hx => ?_⟩, ?_, ?_, fun z hx hz => ?_⟩
  · rw [hflag, Int.toNat_of_nonneg hvalue.1]
    exact hlaw
  · have hput := Registers.get_written_self hregisters x hvalue
    rw [Registers.get_written_of_ne _ _ hx.symm]
    omega
  · rw [hflag]
    exact flag.toNat_le
  · rw [hflag]
    exact hlaw.flag_eq hrange hvalue
  · rw [Registers.get_written_of_ne _ _ hz.symm, Registers.get_written_of_ne _ _ hx.symm]

theorem execute_of_putWithFlag (hregisters : machine.registers.Whole) {value : Int} {flag : Bool}
    (hexecute : execute i traced machine = putWithFlag i.x value flag traced machine)
    (hvalue : IsByte value)
    (hlaw : FlagLaw digit (machine.registers.get i.x) (machine.registers.get i.y) flag.toNat
      value) :
    ComesToFlag digit i.x i.y machine.registers (execute i traced machine).state.registers ∧
      (execute i traced machine).result = .ok () := by
  rw [hexecute, putWithFlag_eq hregisters i.x flag hvalue]
  exact ⟨comesToFlag_written hregisters hvalue hlaw, rfl⟩

theorem comesToFlag_execute (hregisters : machine.registers.Whole) (traced : Bool)
    (hdigit : digit ∈ flagDigits) (hop : i.operation = .ofWord (0x8000 + digit)) :
    ComesToFlag digit i.x i.y machine.registers (execute i traced machine).state.registers ∧
      (execute i traced machine).result = .ok () := by
  have hx := machine.registers.get_le i.x
  have hy := machine.registers.get_le i.y
  simp only [flagDigits, List.mem_cons, List.not_mem_nil, or_false] at hdigit
  rcases hdigit with rfl | rfl | rfl | rfl | rfl
  · have hadd : i.operation = .add := hop
    refine execute_of_putWithFlag hregisters ?_ (Bits.isByte_mask _) (.of_add hx hy)
    simp only [execute, Step.get_bind, hadd, value_bind hregisters]
  · have hsubtract : i.operation = .subtract := hop
    refine execute_of_putWithFlag hregisters ?_ (Bits.isByte_mask _) (.of_subtract hx hy)
    simp only [execute, Step.get_bind, hsubtract, value_bind hregisters]
  · have hshift : i.operation = .shiftRight := hop
    refine execute_of_putWithFlag hregisters ?_ (isByte_natCast ((Nat.shiftRight_le _ 1).trans hx))
      (.of_shiftRight _ _)
    simp only [execute, Step.get_bind, hshift, value_bind hregisters]
  · have hsubtract : i.operation = .subtractFrom := hop
    refine execute_of_putWithFlag hregisters ?_ (Bits.isByte_mask _) (.of_subtractFrom hx hy)
    simp only [execute, Step.get_bind, hsubtract, value_bind hregisters]
  · have hshift : i.operation = .shiftLeft := hop
    refine execute_of_putWithFlag hregisters ?_ (Bits.isByte_mask _) (.of_shiftLeft hx _)
    simp only [execute, Step.get_bind, hshift, value_bind hregisters]

/-! ### Cycles -/

theorem decode_eight (x y : Fin 16) (hdigit : digit < 0x10) :
    let i := Instruction.decode (0x8000 + 0x100 * x + 0x10 * y + digit : Nat)
    i.operation = .ofWord (0x8000 + digit) ∧ i.x = x ∧ i.y = y := by
  have hdigits : 0x8000 + 0x100 * x + 0x10 * y + digit
      = 0x1000 * 0x8 + 0x100 * x + 0x10 * y + digit := rfl
  exact Instruction.decode_outer (by decide) hdigit hdigits

theorem comesToFlag_cycle (hmachine : machine.Whole) (traced : Bool) (hdigit : digit ∈ flagDigits)
    (hword : machine.Executes (0x8000 + 0x100 * x + 0x10 * y + digit)) :
    ComesToFlag digit x y machine.registers (cycle traced machine).state.registers ∧
      (cycle traced machine).result = .ok () := by
  obtain ⟨hop, hx, hy⟩ := decode_eight x y (lt_of_mem_flagDigits hdigit)
  obtain ⟨hstate, hresult⟩ := cycle_of_next? hmachine.memory traced hword.next?
  have hcomes := comesToFlag_execute (whole_fetched hmachine).registers traced hdigit hop
  rwa [← hstate, ← hresult, hx, hy] at hcomes

theorem get_cycle_of_writes (hmachine : machine.Whole) (traced : Bool) {word : Nat}
    (hword : machine.Executes word) (hwrites : (Instruction.decode word).writes = [.register x])
    {z : Fin 16} (hz : z ≠ x) :
    (cycle traced machine).state.registers.get z = machine.registers.get z := by
  have hpart : .register z ∉ machine.writes := by
    simp [writes_of_next? hword.next?, hwrites, hz]
  have hsame : (Part.register z).Same machine (cycle traced machine).state :=
    same_cycle hmachine traced hpart
  exact hsame

theorem get_cycle_of_addByte (hmachine : machine.Whole) (traced : Bool) {nn : Nat}
    (hnn : nn < 0x100)
    (hword : machine.Executes (0x7000 + 0x100 * x + nn)) {z : Fin 16} (hz : z ≠ x) :
    (cycle traced machine).state.registers.get z = machine.registers.get z := by
  have hfamily : (0x7000 + 0x100 * x + nn) / 0x1000 = 0x7 := by omega
  have hop := hword.operation_decode
  simp only [Operation.ofWord, hfamily] at hop
  obtain ⟨hx, -⟩ := Instruction.fields_decode (0x7000 + 0x100 * x + nn : Nat)
  have hx' : (Instruction.decode (0x7000 + 0x100 * x + nn : Nat)).x = x := Fin.ext (by omega)
  refine get_cycle_of_writes hmachine traced hword ?_ hz
  simp only [Instruction.writes, hop, hx']

theorem get_cycle_of_bitwise (hmachine : machine.Whole) (traced : Bool) (hdigit : digit < 4)
    (hword : machine.Executes (0x8000 + 0x100 * x + 0x10 * y + digit)) {z : Fin 16}
    (hz : z ≠ x) :
    (cycle traced machine).state.registers.get z = machine.registers.get z := by
  obtain ⟨hop, hx, -⟩ := decode_eight x y (by omega : digit < 0x10)
  have hall : ∀ digit < 4,
      Operation.ofWord (0x8000 + digit) ∈ [.copy, .bitOr, .bitAnd, .bitXor] := by
    decide
  have hmem := hall digit hdigit
  rw [← hop] at hmem
  simp only [List.mem_cons, List.not_mem_nil, or_false] at hmem
  refine get_cycle_of_writes hmachine traced hword ?_ hz
  rcases hmem with hop | hop | hop | hop
  all_goals simp only [Instruction.writes, hop, hx]

/-! ### The arithmetic as a whole -/

structure KeepsFlagArithmetic (traced : Bool) (machine : Machine) : Prop where
  flagged : ∀ digit ∈ flagDigits, ∀ x y : Fin 16,
    machine.Executes (0x8000 + 0x100 * x + 0x10 * y + digit) →
    ComesToFlag digit x y machine.registers (cycle traced machine).state.registers ∧
      (cycle traced machine).result = .ok ()
  /-- Shifts come to the same on machines that differ in VY, and in which register is VY. -/
  shifted : ∀ digit ∈ [0x6, 0xE], ∀ x y y' : Fin 16, ∀ other : Machine, other.Whole →
    machine.Executes (0x8000 + 0x100 * x + 0x10 * y + digit) →
    other.Executes (0x8000 + 0x100 * x + 0x10 * y' + digit) →
    other.registers.get x = machine.registers.get x →
    (cycle traced other).state.registers.get x = (cycle traced machine).state.registers.get x ∧
      (cycle traced other).state.registers.get flagRegister
        = (cycle traced machine).state.registers.get flagRegister
  copied : ∀ digit < 4, ∀ x y : Fin 16, machine.Executes (0x8000 + 0x100 * x + 0x10 * y + digit) →
    ∀ z ≠ x, (cycle traced machine).state.registers.get z = machine.registers.get z
  added : ∀ nn < 0x100, ∀ x : Fin 16, machine.Executes (0x7000 + 0x100 * x + nn) →
    ∀ z ≠ x, (cycle traced machine).state.registers.get z = machine.registers.get z

theorem shifted_cycle {other : Machine} (hmachine : machine.Whole) (hother : other.Whole)
    (traced : Bool) (hdigit : digit ∈ [0x6, 0xE]) {y' : Fin 16}
    (hword : machine.Executes (0x8000 + 0x100 * x + 0x10 * y + digit))
    (hword' : other.Executes (0x8000 + 0x100 * x + 0x10 * y' + digit))
    (hvx : other.registers.get x = machine.registers.get x) :
    (cycle traced other).state.registers.get x = (cycle traced machine).state.registers.get x ∧
      (cycle traced other).state.registers.get flagRegister
        = (cycle traced machine).state.registers.get flagRegister := by
  have hflagged : digit ∈ flagDigits := by
    have hall : ∀ digit ∈ [0x6, 0xE], digit ∈ flagDigits := by decide
    exact hall digit hdigit
  obtain ⟨⟨⟨result, -, hlaw, hput⟩, -, hflag, -⟩, -⟩ :=
    comesToFlag_cycle hmachine traced hflagged hword
  obtain ⟨⟨⟨result', -, hlaw', hput'⟩, -, hflag', -⟩, -⟩ :=
    comesToFlag_cycle hother traced hflagged hword'
  rw [hvx] at hlaw' hflag'
  obtain ⟨hsame, hsameFlag⟩ := hlaw'.of_shift hdigit (machine.registers.get y)
  have hflags : (cycle traced other).state.registers.get flagRegister
      = (cycle traced machine).state.registers.get flagRegister := by
    rw [hsameFlag, ← hflag] at hflag'
    exact_mod_cast hflag'
  refine ⟨?_, hflags⟩
  by_cases hx : x = flagRegister
  · rw [hx]
    exact hflags
  · rw [hflags] at hsame
    rw [hput hx, hput' hx]
    exact_mod_cast hsame.result_eq hlaw

/-- Whatever the registers hold, and whichever of them are the operands, the arithmetic keeps its
laws. -/
theorem flag_arithmetic (hmachine : machine.Whole) (traced : Bool) :
    machine.KeepsFlagArithmetic traced where
  flagged := fun _ hdigit _ _ hword => comesToFlag_cycle hmachine traced hdigit hword
  shifted := fun _ hdigit _ _ _ _ hother hword hword' hvx =>
    shifted_cycle hmachine hother traced hdigit hword hword' hvx
  copied := fun _ hdigit _ _ hword _ hz => get_cycle_of_bitwise hmachine traced hdigit hword hz
  added := fun _ hnn _ hword _ hz => get_cycle_of_addByte hmachine traced hnn hword hz

/-- VF added to itself: both operands and the flag are one register. -/
theorem flag_arithmetic_aliased :
    let machine :=
      { powerOn 16 (.cycling #[]) with
        memory := Memory.initial.install #[0x8F, 0xF4]
        registers := Registers.zero.written flagRegister 200 }
    machine.Whole ∧ machine.Executes 0x8FF4 ∧ machine.registers.get flagRegister = 200 ∧
      (cycle false machine).state.registers.get flagRegister = 1 := by
  intro machine
  have hmachine : machine.Whole :=
    { whole_powerOn 16 (.cycling #[]) with
      memory := Memory.whole_install Memory.whole_initial (by decide)
      registers := Registers.whole_written_iff.mpr Registers.whole_zero }
  have hmemory : machine.memory = Memory.initial.install #[0x8F, 0xF4] := rfl
  have hpc : machine.pc = (programStart + 0 : Nat) := rfl
  have hword : machine.Executes 0x8FF4 :=
    ⟨rfl, nextOpcode_of_install Memory.whole_initial hmemory hpc (by decide) rfl rfl⟩
  have hflag : machine.registers.get flagRegister = 200 := by decide
  obtain ⟨hcomes, -⟩ :=
    (flag_arithmetic hmachine false).flagged 0x4 (by decide) flagRegister flagRegister hword
  have hcarry : flagOf 0x4 (200 : Nat) (200 : Nat) = 1 := by decide
  rw [← hflag, ← hcomes.flag_eq] at hcarry
  exact ⟨hmachine, hword, hflag, by exact_mod_cast hcarry⟩

end Machine

end ChipEight
