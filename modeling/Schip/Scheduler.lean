import Schip.Machine.Cycle
import Schip.Machine.Program
import Schip.Pacer
import Schip.Sound

/-!
# Scheduler

The machine behind its lock, the flags that say whether cycles are run, the pace, the sound device
and the events that the application has not received yet. Control operations take the lock first; a
poisoned lock makes them fail and changes nothing. Those that touch the machine hold the scheduler
halted while they do, and let it run again only when a program is in place.
-/

set_option autoImplicit false

namespace Schip

/-- Whether cycles are run. -/
inductive RunState where
  | running
  | paused
  /-- Reset, waiting for a program. -/
  | halted
  deriving DecidableEq, Repr

/-- What the application hears about. -/
inductive SchedulerEvent where
  /-- Fault of the cycle that fetched at `pc`. -/
  | fault (pc : UInt16) (fault : Fault)
  /-- The program ended by itself, and the machine was reset. -/
  | exited
  deriving DecidableEq, Repr

/-- State of the scheduler over a sound device. -/
structure Scheduler (σ : Type) where
  machine : Machine
  /-- Whether another user failed while holding the machine. -/
  poisoned : Bool
  /-- Whether the worker is at work. -/
  running : Bool
  paused : Bool
  halted : Bool
  pacer : Pacer
  sound : σ
  /-- Events not received yet, the oldest first. -/
  events : List SchedulerEvent

namespace Scheduler

variable {σ : Type}

/-- Scheduler for a machine; without a program it starts out halted. -/
def spawn (machine : Machine) (poisoned : Bool) (sound : σ) (speed : Float) :
    Except MachineError (Scheduler σ) :=
  if poisoned then .error (.poisoned MachineError.poisonReason)
  else .ok {
    machine := machine
    poisoned := false
    running := true
    paused := false
    halted := !machine.hasProgram
    pacer := Pacer.new machine.paceScale speed
    sound := sound
    events := [] }

/-- Machine behind the lock. -/
def lock (s : Scheduler σ) : Except MachineError Machine :=
  if s.poisoned then .error (.poisoned MachineError.poisonReason) else .ok s.machine

/-- Scheduler whose lock is poisoned. -/
def poison (s : Scheduler σ) : Scheduler σ := { s with poisoned := true }

/-- Whether cycles are run; halting counts before pausing. -/
def state (s : Scheduler σ) : RunState :=
  if s.halted then .halted else if s.paused then .paused else .running

/-- Whether the next slot executes an instruction. -/
def isActive (s : Scheduler σ) : Bool := !s.paused && !s.halted

/-- Pause. -/
def pause (s : Scheduler σ) : Scheduler σ := { s with paused := true }

/-- End of a pause. -/
def resume (s : Scheduler σ) : Scheduler σ := { s with paused := false }

/-- Pause or its end, and whether it is a pause now. -/
def togglePause (s : Scheduler σ) : Bool × Scheduler σ :=
  (!s.paused, { s with paused := !s.paused })

/-- Key of the machine's keypad pressed or released. The keypad is not behind the lock. -/
def setKey (s : Scheduler σ) (key : UInt8) (down : Bool) : Scheduler σ :=
  { s with machine := s.machine.withKeypad (s.machine.keypad.setKey key down) }

/-- Machine reset, waiting for a program. -/
def reset (s : Scheduler σ) : Except MachineError Unit × Scheduler σ :=
  match s.lock with
  | .error error => (.error error, s)
  | .ok machine => (.ok (), { s with machine := machine.reset, halted := true })

/-- Last program run again from the top, and whether there was one. -/
def restart (s : Scheduler σ) : Except MachineError Bool × Scheduler σ :=
  match s.lock with
  | .error error => (.error error, s)
  | .ok machine =>
    match machine.restart with
    | (.error error, machine') => (.error error, { s with machine := machine', halted := true })
    | (.ok again, machine') => (.ok again, { s with machine := machine', halted := !again })

/-- Outcome of loading a program into the held machine: it runs if all went well. -/
def afterLoad (s : Scheduler σ) :
    Except MachineError Nat × Machine → Except MachineError Nat × Scheduler σ
  | (.error error, machine) => (.error error, { s with machine := machine, halted := true })
  | (.ok size, machine) => (.ok size, { s with machine := machine, halted := false })

/-- Another program loaded and run. -/
def reload (s : Scheduler σ) (program : List UInt8) : Except MachineError Nat × Scheduler σ :=
  match s.lock with
  | .error error => (.error error, s)
  | .ok machine => s.afterLoad (machine.loadProgram (.ofBytes program))

/-- Another program loaded from a file and run. -/
def loadFile (s : Scheduler σ) (file : ProgramFile) : Except MachineError Nat × Scheduler σ :=
  match s.lock with
  | .error error => (.error error, s)
  | .ok machine => s.afterLoad (machine.loadFile file)

end Scheduler

/-- Operation of the application on the scheduler. -/
inductive Control where
  | pause
  | resume
  | togglePause
  | reset
  | restart
  | reload (program : List UInt8)
  | loadFile (file : ProgramFile)
  deriving DecidableEq, Repr

/-- Answer of a control operation. -/
inductive Reply where
  | done
  | flag (value : Bool)
  | size (bytes : Nat)
  deriving DecidableEq, Repr

namespace Scheduler

variable {σ : Type}

/-- Answer of an operation as a reply. -/
def reply {α : Type} (wrap : α → Reply) :
    Except MachineError α × Scheduler σ → Except MachineError Reply × Scheduler σ
  | (.error error, s) => (.error error, s)
  | (.ok value, s) => (.ok (wrap value), s)

/-- Control operation by name. -/
def control (s : Scheduler σ) : Control → Except MachineError Reply × Scheduler σ
  | .pause => (.ok .done, s.pause)
  | .resume => (.ok .done, s.resume)
  | .togglePause => (.ok (.flag s.togglePause.1), s.togglePause.2)
  | .reset => reply (fun _ => .done) s.reset
  | .restart => reply .flag s.restart
  | .reload program => reply .size (s.reload program)
  | .loadFile file => reply .size (s.loadFile file)

/-- Lines that a control operation on `s` writes, by its answer. -/
def controlLog (s : Scheduler σ) : Control → Except MachineError Reply → List LogLine
  | .togglePause, .ok (.flag paused) => [⟨.info, if paused then "paused" else "resumed"⟩]
  | .restart, .ok (.flag again) => s.machine.restartLog (.ok again)
  | .reload _, .ok (.size bytes) => Machine.loadLog (.ok bytes)
  | .loadFile _, .ok (.size bytes) => Machine.loadLog (.ok bytes)
  | _, _ => []

end Scheduler

end Schip
