import ChipEight.Main
import ChipEight.Proofs.StepRules
import ChipEight.Proofs.CallStackLemmas
import ChipEight.Proofs.DisplayLemmas
import ChipEight.Proofs.SpriteImage
import ChipEight.Proofs.MemoryLemmas
import ChipEight.Proofs.RegisterLemmas
import ChipEight.Proofs.KeypadLemmas
import ChipEight.Proofs.Transition
import ChipEight.Proofs.CycleLemmas
import ChipEight.Proofs.Commands
import ChipEight.Proofs.Wholeness
import ChipEight.Proofs.Safety
import ChipEight.Proofs.CallDiscipline
import ChipEight.Proofs.Resemblance
import ChipEight.Proofs.Mirror
import ChipEight.Proofs.MirroredRuns
import ChipEight.Proofs.Observation
import ChipEight.Proofs.Magnification
import ChipEight.Proofs.DirtyFlag
import ChipEight.Proofs.SessionRounds
import ChipEight.Proofs.Openings
import ChipEight.Proofs.WindowConsistency
import ChipEight.Proofs.Footprint
import ChipEight.Proofs.ReadSet
import ChipEight.Proofs.KeyWait
import ChipEight.Proofs.FlagTaking
import ChipEight.Proofs.Driving
import ChipEight.Proofs.LifeCycle
import ChipEight.Proofs.OpcodeDigits
import ChipEight.Proofs.FrameContract
import ChipEight.Proofs.StackMisuse
import ChipEight.Proofs.SpriteInstruction
import ChipEight.Proofs.FlagArithmetic
import ChipEight.Proofs.ControlFlow
import ChipEight.Proofs.BlockTransfer
import ChipEight.Proofs.Decoding
import ChipEight.Proofs.RepeatedDrawing
import ChipEight.Proofs.CollisionCount
import ChipEight.Proofs.Keyboard
import ChipEight.Proofs.Beeping
import ChipEight.Proofs.Assembly
import ChipEight.Proofs.Trace
import ChipEight.Proofs.Legibility
import ChipEight.Proofs.StateReport
import ChipEight.Proofs.Loading
import ChipEight.Proofs.SquareWave
import ChipEight.Proofs.SoundFormat
import ChipEight.Proofs.Rendering
import ChipEight.Proofs.BoundedList
import ChipEight.Proofs.MemoryAccesses
