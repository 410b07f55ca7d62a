import ChipEight.Effect
import ChipEight.Parameters
import ChipEight.Tone

/-!
The buzzer: a square wave that plays without end and is heard only while its volume is up.
-/

namespace ChipEight

namespace Mixer

/-- Signed samples of sixteen bits on one channel. -/
def preferred : AudioFormat :=
  ⟨defaultSampleRate, -16, 1⟩

def preferredBuffer : Int := 256

end Mixer

structure Buzzer where
  volume : Float
  muted : Bool
  /-- Whether there is a sound to play. -/
  audible : Bool

namespace Buzzer

/-- A volume between 0 and 1; what is no number counts as 0. -/
def clampVolume (volume : Float) : Float :=
  let capped := if 1.0 < volume then 1.0 else volume
  if 0.0 < capped then capped else 0.0

/-- What comes of setting up a buzzer: the buzzer, what was done for it, why it stays silent if it
does, and the fault that cut it short. -/
structure Setup where
  buzzer : Buzzer
  effects : List Effect
  silentBecause : Option String
  fault : Option Fault

theorem clampVolume_eq (volume : Float) :
    clampVolume volume = if 1.0 < volume then 1.0 else if 0.0 < volume then volume else 0.0 := by
  unfold clampVolume
  split
  · rw [if_pos (by decide : (0.0 : Float) < 1.0)]
  · rfl

def waveFor (room : Room) (format : AudioFormat) : Except Fault (List UInt8) :=
  Tone.wave room toneFrequency format.rate format.channels

/-- Start a sound, at first unheard. -/
def startSound (wave : List UInt8) : List Effect :=
  [.makeSound wave, .setVolume 0.0, .play (-1)]

/-- Set up a buzzer on a sound device that runs, after some effects. -/
def setUpOn (room : Room) (format : AudioFormat) (volume : Float) (muted : Bool)
    (done : List Effect) : Setup :=
  match waveFor room format with
  | .ok wave => ⟨⟨clampVolume volume, muted, true⟩, done ++ startSound wave, none, none⟩
  | .error fault => ⟨⟨clampVolume volume, muted, false⟩, done, none, some fault⟩

/-- Set up a buzzer. The sound device is opened unless it runs already, and the wave follows the
format that it really has. -/
def setUp (room : Room) (volume : Float) (muted : Bool) (mixer : Mixer) : Setup :=
  match mixer.running with
  | some format => setUpOn room format volume muted []
  | none =>
      let opening := Effect.openAudio Mixer.preferred Mixer.preferredBuffer
      match mixer.opened Mixer.preferred with
      | .ok format => setUpOn room format volume muted [opening]
      | .error reason => ⟨⟨clampVolume volume, muted, false⟩, [opening], some reason, none⟩

/-- What a traced program writes about a silent buzzer. -/
def silenceLine (reason : String) : String :=
  s!"no audio device, the buzzer stays silent: {reason}"

def level (buzzer : Buzzer) (beeping : Bool) : Float :=
  if beeping && !buzzer.muted then buzzer.volume else 0.0

def update (buzzer : Buzzer) (beeping : Bool) : List Effect :=
  if buzzer.audible then [.setVolume (buzzer.level beeping)] else []

end Buzzer

end ChipEight
