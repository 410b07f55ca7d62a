import ChipEight.Proofs.LifeCycle
import ChipEight.Proofs.SquareWave

/-!
The sound of the buzzer on the device that plays it. The wave has the rate and the channels of the
device, but always samples of sixteen bits. To a device with samples of another size it is not one
period: there are the bytes of two periods where a sample has eight bits, and of half a period where
it has 32.
-/

namespace ChipEight

namespace AudioFormat

/-- The sizes of samples in bits. A negative size is that of samples with a sign. -/
def sampleSizes : List Int := [8, -8, 16, -16, 32]

structure Playable (format : AudioFormat) : Prop where
  rate : 1 ≤ format.rate
  size : format.size ∈ sampleSizes
  channels : 1 ≤ format.channels

/-- The samples of one period of the tone, all channels together. -/
def periodSamples (format : AudioFormat) : Int :=
  2 * max (format.rate / 880) 1 * format.channels

/-- The bytes that a device with this format takes for one period of the tone. -/
def periodBytes (format : AudioFormat) : Int :=
  format.periodSamples * (format.size.natAbs / 8 : Nat)

/-- A wave follows a format in all but the size of its samples. -/
structure MadeFor (format : AudioFormat) (wave : List UInt8) : Prop where
  period : Tone.IsPeriod toneFrequency format.rate format.channels wave
  length : (wave.length : Int) = format.periodSamples * 2
  proportion : 16 * format.periodBytes = format.size.natAbs * wave.length
  fits_iff : (wave.length : Int) = format.periodBytes ↔ format.size.natAbs = 16

variable {format : AudioFormat}

theorem Playable.natAbs_size (hplayable : format.Playable) :
    format.size.natAbs = 8 * (format.size.natAbs / 8) := by
  obtain ⟨-, hsize, -⟩ := hplayable
  simp only [sampleSizes, List.mem_cons, List.not_mem_nil, or_false] at hsize
  omega

theorem Playable.periodSamples_pos (hplayable : format.Playable) : 0 < format.periodSamples :=
  Int.mul_pos (by omega) hplayable.channels

theorem madeFor_of_squareWave (hplayable : format.Playable) {wave : List UInt8}
    (hwave : Tone.squareWave? toneFrequency format.rate format.channels = some wave) :
    format.MadeFor wave := by
  have hperiod : Tone.IsPeriod toneFrequency format.rate format.channels wave :=
    Tone.isPeriod_squareWave (by decide) hplayable.channels hwave
  have hhalf : Tone.halfPeriod toneFrequency format.rate = max (format.rate / 880) 1 :=
    hperiod.half_eq
  have hlength : (wave.length : Int) = format.periodSamples * 2 := by
    rw [hperiod.pairs, Nat.cast_mul, hperiod.length, hhalf]
    exact mul_comm _ _
  have hsize := hplayable.natAbs_size
  refine ⟨hperiod, hlength, ?_, ?_⟩
  · calc 16 * format.periodBytes
        = ((8 * (format.size.natAbs / 8) : Nat) : Int) * (format.periodSamples * 2) := by
          rw [periodBytes]
          push_cast
          ring
      _ = format.size.natAbs * wave.length := by rw [← hsize, hlength]
  · rw [hlength, periodBytes, mul_right_inj' hplayable.periodSamples_pos.ne']
    omega

end AudioFormat

namespace Buzzer

variable {mixer : Mixer} {format : AudioFormat}

/-- Whether the sound device ran before or was opened, the wave that is made follows its format in
all but the size of the samples. -/
theorem setUp_madeFor (hformat : mixer.format? = some format) (hplayable : format.Playable)
    (room : Room) (volume : Float) (muted : Bool) :
    ∃ wave, format.MadeFor wave ∧
      match room.check (Tone.halfPeriod toneFrequency format.rate) 8 with
      | .ok () => (setUp room volume muted mixer).effects = mixer.opening ++ startSound wave ∧
          (setUp room volume muted mixer).fault = none
      | .error fault => (setUp room volume muted mixer).effects = mixer.opening ∧
          (setUp room volume muted mixer).fault = some fault := by
  have hwave := Tone.squareWave_of_ne_zero (show toneFrequency ≠ 0 by decide) format.rate
    format.channels
  refine ⟨_, AudioFormat.madeFor_of_squareWave hplayable hwave, ?_⟩
  rw [setUp_of_format hformat, setUpOn, waveFor, Tone.wave_of_squareWave room hwave]
  cases room.check (Tone.halfPeriod toneFrequency format.rate) 8 with
  | ok _ => exact ⟨rfl, rfl⟩
  | error fault => exact ⟨rfl, rfl⟩

theorem setUp_madeFor_stereo :
    let format : AudioFormat := ⟨44100, -16, 2⟩
    let mixer : Mixer := ⟨none, fun _ => .ok format⟩
    mixer.format? = some format ∧ format.Playable ∧ ∃ wave, format.MadeFor wave ∧
      (setUp .ample defaultVolume false mixer).effects =
        .openAudio Mixer.preferred Mixer.preferredBuffer :: startSound wave := by
  intro format mixer
  have hformat : mixer.format? = some format := rfl
  have hplayable : format.Playable := ⟨by decide, by decide, by decide⟩
  obtain ⟨wave, hmade, heffects, -⟩ := setUp_madeFor hformat hplayable .ample defaultVolume false
  exact ⟨hformat, hplayable, wave, hmade, heffects⟩

/-- A device that runs with signed samples of eight bits is given twice the bytes of a period. -/
theorem eight_bits_are_given_sixteen :
    let format : AudioFormat := ⟨44100, -8, 1⟩
    let mixer : Mixer := ⟨some format, .ok⟩
    mixer.format? = some format ∧ format.Playable ∧ format.periodBytes = 100 ∧
      ∃ wave, (setUp .ample defaultVolume false mixer).effects = startSound wave ∧
        wave.length = 200 := by
  intro format mixer
  have hplayable : format.Playable := ⟨by decide, by decide, by decide⟩
  have hwave := Tone.squareWave_of_ne_zero (show toneFrequency ≠ 0 by decide) 44100 1
  have hmade : waveFor .ample format = .ok _ := Tone.wave_of_squareWave .ample hwave
  have hlength : _ = (200 : Int) := (AudioFormat.madeFor_of_squareWave hplayable hwave).length
  have hsetUp : setUp .ample defaultVolume false mixer
      = setUpOn .ample format defaultVolume false [] := rfl
  refine ⟨rfl, hplayable, by decide, _, ?_, Int.ofNat_inj.mp hlength⟩
  rw [hsetUp, setUpOn, hmade]
  rfl

end Buzzer

end ChipEight
