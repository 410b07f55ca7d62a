import ChipEight.Host
import ChipEight.Surface

/-!
What the front end does to the world outside: the window, the sound device and the clock.
-/

namespace ChipEight

inductive Effect where
  /-- Choose the format and the buffer with which the sound device will be opened. -/
  | presetAudio (format : AudioFormat) (buffer : Int)
  | start
  | caption (text : String)
  | openAudio (format : AudioFormat) (buffer : Int)
  /-- Make a sound from the bytes of its samples. -/
  | makeSound (wave : List UInt8)
  | setVolume (volume : Float)
  /-- Play the sound again and again; a negative count stands for no end. -/
  | play (repeats : Int)
  /-- Bring the window up to date. -/
  | flip (surface : Surface)
  /-- Wait for the next frame, as many frames a second as are asked for. -/
  | frame (fps : Option Int)
  | quit

end ChipEight
