import Schip.CommandLine.Help
import Schip.FrameBuffer.Checked
import Schip.Main
import Schip.Picture
import Schip.Proofs.Guarded.NoAbort
import Schip.Proofs.Machine.RenderIndependence
import Schip.Proofs.Machine.Renewal
import Schip.Proofs.Machine.Subroutine
import Schip.Proofs.Scheduler.EventStream
import Schip.Proofs.Scheduler.HaltedReset
import Schip.Proofs.Scheduler.PauseTransparency
import Schip.Proofs.Scheduler.SoundIndependence
import Schip.Proofs.Scheduler.StoredProgram
import Schip.Proofs.Scheduler.ToneCompleteness
import Schip.Proofs.Scheduler.ToneSafety
import Schip.Proofs.Screen.Coherence
import Schip.Proofs.Session.Ending
import Schip.Terminal
import Schip.Proofs.Input.Mirror
import Schip.Proofs.Machine.AllOrNothing
import Schip.Proofs.Input.LostPress
import Schip.Proofs.Machine.OutsideTable
import Schip.Proofs.Machine.SpriteTwice
import Schip.Proofs.Screen.Translation
import Schip.Proofs.Screen.HiddenRow
import Schip.Proofs.Screen.Plotting
import Schip.Proofs.Screen.Afterglow
import Schip.Proofs.Scheduler.Fading
import Schip.Proofs.Machine.Arithmetic
import Schip.Proofs.Machine.MemoryAccess
import Schip.Proofs.Machine.SaveRestore
import Schip.Proofs.Machine.ProgramCounter
import Schip.Proofs.Machine.Timers
import Schip.Proofs.Machine.KeyWait
import Schip.Proofs.Memory.BulkAccess
import Schip.Proofs.Scheduler.PoisonedLock
import Schip.Proofs.Registers.BoundedStack
import Schip.Proofs.Screen.Addressing
import Schip.Proofs.Scheduler.Pace
import Schip.Proofs.Instruction.Reading
