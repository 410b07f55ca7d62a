import ChipEight.Proofs.Masks
import ChipEight.Tone
import Mathlib.Tactic.Ring

/-!
The samples of a square wave, read back from its bytes: every channel holds the same period, which
is as long up as down and is the longest one of whole samples that the frequency leaves room for.
-/

namespace ChipEight.Tone

abbrev IsSample (n : Int) : Prop :=
  -32768 ≤ n ∧ n < 32768

/-- Every `count`-th sample, from sample `c` on. -/
def channel (count c : Nat) (samples : List Int) : List Int :=
  (List.range samples.length).filterMap fun k => samples[c + k * count]?

/-- Bytes hold one period on each of some channels. -/
structure IsPeriod (frequency rate channels : Int) (bytes : List UInt8) : Prop where
  half_eq : halfPeriod frequency rate = max (rate / (2 * frequency)) 1
  pairs : bytes.length = 2 * (decode bytes).length
  length : ((decode bytes).length : Int) = 2 * halfPeriod frequency rate * channels
  channel_eq : ∀ c < channels.toNat, channel channels.toNat c (decode bytes) =
    List.replicate (halfPeriod frequency rate).toNat 32767
      ++ List.replicate (halfPeriod frequency rate).toNat (-32767)
  mono : ∀ c < channels.toNat,
    (squareWave? frequency rate 1).map decode = some (channel channels.toNat c (decode bytes))
  balanced : ∀ c < channels.toNat, (channel channels.toNat c (decode bytes)).sum = 0
  short : 2 * frequency ≤ rate →
    0 ≤ rate - 2 * halfPeriod frequency rate * frequency ∧
      rate - 2 * halfPeriod frequency rate * frequency < 2 * frequency

variable {frequency rate channels : Int} {samples : List Int}

/-! ### Samples as bytes -/

theorem toNat_bytes {word : Nat} (hword : word < 0x10000) :
    (UInt8.ofNat (word &&& 0xFF)).toNat + 256 * (UInt8.ofNat (word >>> 8)).toNat = word := by
  have hlow : word &&& 0xFF = word % 0x100 := Nat.and_two_pow_sub_one_eq_mod word 8
  have hhigh : word >>> 8 = word / 0x100 := Nat.shiftRight_eq_div_pow word 8
  rw [UInt8.toNat_ofNat', UInt8.toNat_ofNat', hlow, hhigh]
  omega

theorem decode_encode_append {sample : Int} (hsample : IsSample sample) (rest : List UInt8) :
    decode (encode sample ++ rest) = sample :: decode rest := by
  have hword : (Bits.mask sample 0xFFFF : Int) = sample % 0x10000 := Bits.mask_wordMask sample
  have hbytes := toNat_bytes (show Bits.mask sample 0xFFFF < 0x10000 by omega)
  unfold encode
  generalize Bits.mask sample 0xFFFF = word at *
  simp only [List.cons_append, List.nil_append, decode, List.cons.injEq, and_true]
  split <;> omega

theorem decode_flatMap_encode (hsamples : ∀ sample ∈ samples, IsSample sample) :
    decode (samples.flatMap encode) = samples := by
  induction samples with
  | nil => rfl
  | cons sample rest ih =>
      obtain ⟨hsample, hrest⟩ := List.forall_mem_cons.mp hsamples
      rw [List.flatMap_cons, decode_encode_append hsample, ih hrest]

theorem length_flatMap_encode (samples : List Int) :
    (samples.flatMap encode).length = 2 * samples.length := by
  induction samples with
  | nil => rfl
  | cons sample rest ih =>
      rw [List.flatMap_cons, List.length_append, ih, List.length_cons]
      exact Nat.add_comm 2 _

/-! ### Channels -/

theorem mem_interleave {sample : Int} (hmem : sample ∈ interleave channels samples) :
    sample ∈ samples := by
  obtain ⟨original, horiginal, hcopy⟩ := List.mem_flatMap.mp hmem
  rwa [List.eq_of_mem_replicate hcopy]

theorem interleave_one (samples : List Int) : interleave 1 samples = samples :=
  List.flatMap_singleton' samples

theorem length_interleave (channels : Int) (samples : List Int) :
    (interleave channels samples).length = channels.toNat * samples.length := by
  simp [interleave, List.length_flatMap, List.map_const', Nat.mul_comm]

/-- Sample `k` stands in row `k`, once for each channel. -/
theorem getElem?_interleave {c : Nat} (hc : c < channels.toNat) (samples : List Int) (k : Nat) :
    (interleave channels samples)[c + k * channels.toNat]? = samples[k]? := by
  induction samples generalizing k with
  | nil => rfl
  | cons sample rest ih =>
      have hsplit : interleave channels (sample :: rest)
          = List.replicate channels.toNat sample ++ interleave channels rest := List.flatMap_cons
      rw [hsplit]
      cases k with
      | zero =>
          rw [Nat.zero_mul, Nat.add_zero, List.getElem?_append_left (by simpa using hc)]
          simp [hc]
      | succ k =>
          have hrow : c + (k + 1) * channels.toNat - channels.toNat = c + k * channels.toNat := by
            rw [Nat.succ_mul]
            omega
          have hbehind : channels.toNat ≤ c + (k + 1) * channels.toNat := by
            rw [Nat.succ_mul]
            omega
          rw [List.getElem?_append_right (by simpa using hbehind), List.length_replicate, hrow, ih,
            List.getElem?_cons_succ]

theorem filterMap_getElem?_range {count : Nat} (hcount : samples.length ≤ count) :
    (List.range count).filterMap (samples[·]?) = samples := by
  induction samples generalizing count with
  | nil => simp
  | cons sample rest ih =>
      cases count with
      | zero => cases hcount
      | succ count =>
          rw [List.range_succ_eq_map, List.filterMap_cons_some List.getElem?_cons_zero,
            List.filterMap_map]
          exact congrArg _ (ih (Nat.le_of_succ_le_succ hcount))

/-- Taking the channels apart undoes putting them together. -/
theorem channel_interleave {c : Nat} (hc : c < channels.toNat) (samples : List Int) :
    channel channels.toNat c (interleave channels samples) = samples := by
  simp only [channel, getElem?_interleave hc]
  -- There are no fewer samples of all channels than of one, so none is left out.
  apply filterMap_getElem?_range
  rw [length_interleave]
  exact Nat.le_mul_of_pos_left _ (Nat.zero_lt_of_lt hc)

/-! ### One period -/

theorem one_le_halfPeriod (frequency rate : Int) : 1 ≤ halfPeriod frequency rate :=
  le_max_right _ _

theorem halfPeriod_eq (hfrequency : 1 ≤ frequency) (rate : Int) :
    halfPeriod frequency rate = max (rate / (2 * frequency)) 1 := by
  rw [halfPeriod, Int.fdiv_eq_ediv_of_nonneg rate (by omega)]

/-- What the period misses of the ideal one is a remainder. -/
theorem sub_halfPeriod_eq (hfrequency : 1 ≤ frequency) (hrate : 2 * frequency ≤ rate) :
    rate - 2 * halfPeriod frequency rate * frequency = rate % (2 * frequency) := by
  have hquotient : 1 ≤ rate / (2 * frequency) :=
    (Int.le_ediv_iff_mul_le (by omega)).mpr (by omega)
  calc rate - 2 * halfPeriod frequency rate * frequency
      = rate - 2 * frequency * (rate / (2 * frequency)) := by
        rw [halfPeriod_eq hfrequency, max_eq_left hquotient]
        ring
    _ = rate % (2 * frequency) := (Int.emod_def _ _).symm

theorem length_period (frequency rate : Int) :
    ((period frequency rate).length : Int) = 2 * halfPeriod frequency rate := by
  have hhalf := one_le_halfPeriod frequency rate
  simp only [period, List.length_append, List.length_replicate]
  omega

theorem isSample_of_mem_period {sample : Int} (hmem : sample ∈ period frequency rate) :
    IsSample sample := by
  rcases List.mem_append.mp hmem with hup | hdown
  · rw [List.eq_of_mem_replicate hup]
    decide
  · rw [List.eq_of_mem_replicate hdown]
    decide

theorem sum_period (frequency rate : Int) : (period frequency rate).sum = 0 := by
  simp [period]

/-! ### The wave -/

theorem squareWave_of_ne_zero (hfrequency : frequency ≠ 0) (rate channels : Int) :
    squareWave? frequency rate channels =
      some ((interleave channels (period frequency rate)).flatMap encode) :=
  if_neg hfrequency

section Bytes

variable {bytes : List UInt8}

theorem eq_of_squareWave (hbytes : squareWave? frequency rate channels = some bytes) :
    bytes = (interleave channels (period frequency rate)).flatMap encode := by
  by_cases hfrequency : frequency = 0
  · rw [squareWave?, if_pos hfrequency] at hbytes
    cases hbytes
  · rw [squareWave_of_ne_zero hfrequency] at hbytes
    exact (Option.some.inj hbytes).symm

theorem decode_squareWave (hbytes : squareWave? frequency rate channels = some bytes) :
    decode bytes = interleave channels (period frequency rate) := by
  rw [eq_of_squareWave hbytes]
  apply decode_flatMap_encode
  intro sample hmem
  exact isSample_of_mem_period (mem_interleave hmem)

theorem length_squareWave (hbytes : squareWave? frequency rate channels = some bytes) :
    bytes.length = 2 * (decode bytes).length := by
  rw [decode_squareWave hbytes, eq_of_squareWave hbytes]
  exact length_flatMap_encode _

theorem length_decode_squareWave (hchannels : 0 ≤ channels)
    (hbytes : squareWave? frequency rate channels = some bytes) :
    ((decode bytes).length : Int) = 2 * halfPeriod frequency rate * channels := by
  calc ((decode bytes).length : Int)
      = channels.toNat * (period frequency rate).length := by
        rw [decode_squareWave hbytes, length_interleave, Nat.cast_mul]
    _ = 2 * halfPeriod frequency rate * channels := by
        rw [length_period, Int.toNat_of_nonneg hchannels, mul_comm]

theorem channel_squareWave (hbytes : squareWave? frequency rate channels = some bytes) {c : Nat}
    (hc : c < channels.toNat) :
    channel channels.toNat c (decode bytes) = period frequency rate := by
  rw [decode_squareWave hbytes]
  exact channel_interleave hc _

theorem isPeriod_squareWave (hfrequency : 1 ≤ frequency) (hchannels : 1 ≤ channels)
    (hbytes : squareWave? frequency rate channels = some bytes) :
    IsPeriod frequency rate channels bytes where
  half_eq := halfPeriod_eq hfrequency rate
  pairs := length_squareWave hbytes
  length := length_decode_squareWave (by omega) hbytes
  channel_eq _ := channel_squareWave hbytes
  mono c hc := by
    rw [channel_squareWave hbytes hc, squareWave_of_ne_zero (by omega), Option.map_some,
      decode_squareWave (squareWave_of_ne_zero (by omega) rate 1), interleave_one]
  balanced c hc := by
    rw [channel_squareWave hbytes hc]
    exact sum_period frequency rate
  short hrate := by
    rw [sub_halfPeriod_eq hfrequency hrate]
    exact ⟨Int.emod_nonneg _ (by omega), Int.emod_lt_of_pos _ (by omega)⟩

theorem wave_of_squareWave (room : Room)
    (hbytes : squareWave? frequency rate channels = some bytes) :
    wave room frequency rate channels
      = (room.check (halfPeriod frequency rate) 8).map fun () => bytes := by
  rw [wave, hbytes]
  cases room.check (halfPeriod frequency rate) 8 with
  | error fault => rfl
  | ok _ => rfl

end Bytes

/-- There is a wave whatever the rate, it is one period on each channel, and it is what comes of
asking for it as long as there is room. -/
theorem wave_isPeriod (hfrequency : 1 ≤ frequency) (rate : Int) (hchannels : 1 ≤ channels) :
    ∃ bytes, squareWave? frequency rate channels = some bytes ∧
      (∀ room : Room, wave room frequency rate channels
        = (room.check (halfPeriod frequency rate) 8).map fun () => bytes) ∧
      IsPeriod frequency rate channels bytes := by
  have hbytes := squareWave_of_ne_zero (show frequency ≠ 0 by omega) rate channels
  exact ⟨_, hbytes, fun room => wave_of_squareWave room hbytes,
    isPeriod_squareWave hfrequency hchannels hbytes⟩

theorem wave_isPeriod_stereo :
    (1 : Int) ≤ 441 ∧ (1 : Int) ≤ 2 ∧
      ∃ bytes, wave .ample 441 44100 2 = .ok bytes ∧ IsPeriod 441 44100 2 bytes := by
  have hfrequency : (1 : Int) ≤ 441 := by decide
  have hchannels : (1 : Int) ≤ 2 := by decide
  obtain ⟨bytes, -, hwave, hperiod⟩ := wave_isPeriod hfrequency 44100 hchannels
  exact ⟨hfrequency, hchannels, bytes, hwave .ample, hperiod⟩

end ChipEight.Tone
