import ChipEight.Host

/-!
One period of a square wave, as sixteen-bit samples with the low byte first. The samples of the
channels alternate.
-/

namespace ChipEight.Tone

def amplitude : Int := 32767

/-- How long the wave stays up: half a period in whole samples, at least one. -/
def halfPeriod (frequency rate : Int) : Int :=
  max (rate.fdiv (2 * frequency)) 1

def period (frequency rate : Int) : List Int :=
  List.replicate (halfPeriod frequency rate).toNat amplitude
    ++ List.replicate (halfPeriod frequency rate).toNat (-amplitude)

/-- Every sample once for each channel. -/
def interleave (channels : Int) (samples : List Int) : List Int :=
  samples.flatMap (List.replicate channels.toNat ·)

def encode (sample : Int) : List UInt8 :=
  let word := Bits.mask sample 0xFFFF
  [UInt8.ofNat (word &&& 0xFF), UInt8.ofNat (word >>> 8)]

/-- The samples that bytes hold; a last byte without a partner is left out. -/
def decode : List UInt8 → List Int
  | low :: high :: rest =>
      let word : Int := low.toNat + 256 * high.toNat
      (if word < 32768 then word else word - 65536) :: decode rest
  | _ => []

/-- The bytes of a square wave; there is none of frequency zero. -/
def squareWave? (frequency rate channels : Int) : Option (List UInt8) :=
  if frequency = 0 then none
  else some ((interleave channels (period frequency rate)).flatMap encode)

/-- The bytes of a square wave, if there is room for its samples. -/
def wave (room : Room) (frequency rate channels : Int) : Except Fault (List UInt8) :=
  match room.check (halfPeriod frequency rate) 8 with
  | .error fault => .error fault
  | .ok () =>
      match squareWave? frequency rate channels with
      | some bytes => .ok bytes
      | none => .error .zeroFrequency

end ChipEight.Tone
