import Schip.Scheduler

/-!
# Slots of the scheduler

One slot of the worker: the afterglow ages, and if the scheduler is neither paused nor halted the
machine runs one cycle. Its faults become events; the end of the program resets the machine, halts
the scheduler and becomes an event after them. The tone is dealt with last, so a device that refuses
a request cannot disturb anything but the tone.
-/

set_option autoImplicit false

namespace Schip

/-- Report of one slot. -/
structure TickReport where
  /-- Cycle that was run, if any. -/
  step : Option Step
  /-- Requests made on the sound device, in order. -/
  tones : List ToneCall
  /-- Events sent, in order. -/
  events : List SchedulerEvent
  deriving DecidableEq, Repr

/-- Events of a cycle: its faults in order, and the end of the program. -/
def Step.events (step : Step) : List SchedulerEvent :=
  step.faults.map (SchedulerEvent.fault step.pc) ++
    if step.outcome = .exit then [.exited] else []

/-- Requests after a cycle, by what it asked for and by the sound timer that it left. -/
def ToneCall.afterCycle {σ : Type} [Sound σ] (outcome : Outcome) (timer : UInt8) (device : σ) :
    List ToneCall × σ :=
  match outcome with
  | .exit => silence device
  | .proceed => if timer = 0 then silence device else ([], device)
  | .startTone =>
    match startIfSilent device with
    | (started, device') =>
      if timer = 0 then
        match silence device' with
        | (stopped, device'') => (started ++ stopped, device'')
      else (started, device')

namespace Scheduler

variable {σ : Type} [Sound σ]

/-- Slot without a cycle: the tone falls silent. -/
def idleSlot (s : Scheduler σ) : TickReport × Scheduler σ :=
  match ToneCall.silence s.sound with
  | (tones, sound) => (⟨none, tones, []⟩, { s with sound := sound })

/-- Machine after a cycle that asked for `outcome`: the end of a program resets it. -/
def settle (outcome : Outcome) (machine : Machine) : Machine :=
  if outcome = .exit then machine.reset else machine

/-- Slot with a cycle. -/
def activeSlot (s : Scheduler σ) : TickReport × Scheduler σ :=
  match s.machine.cycle with
  | (step, cycled) =>
    let machine := settle step.outcome cycled
    match ToneCall.afterCycle step.outcome machine.registers.sound s.sound with
    | (tones, sound) =>
      (⟨some step, tones, step.events⟩,
        { s with
          machine := machine
          halted := s.halted || step.outcome = .exit
          pacer := s.pacer.setPaceScale machine.paceScale
          sound := sound
          events := s.events ++ step.events })

/-- Machine with its afterglow one update on. -/
def faded (machine : Machine) : Machine :=
  machine.withScreen machine.screen.updateDecay

/-- One slot. A poisoned lock makes it fail and changes nothing. -/
def tick (s : Scheduler σ) : Except MachineError TickReport × Scheduler σ :=
  match s.lock with
  | .error error => (.error error, s)
  | .ok machine =>
    let aged := { s with machine := faded machine }
    match (if s.isActive then aged.activeSlot else aged.idleSlot) with
    | (report, s') => (.ok report, s')

/-- End of the worker, which leaves the tone silent. A worker that has ended does nothing more. -/
def stop (s : Scheduler σ) : List ToneCall × Scheduler σ :=
  if s.running then
    match ToneCall.silence s.sound with
    | (tones, sound) => (tones, { s with running := false, sound := sound })
  else ([], s)

/-- One slot of the worker's loop: nothing once it has ended, and the end at the first failure. -/
def work (s : Scheduler σ) : Scheduler σ :=
  if s.running then
    match s.tick with
    | (.ok _, s') => s'
    | (.error _, s') => s'.stop.2
  else s

/-- Slots run whatever their result, `n` of them. -/
def ticks : Nat → Scheduler σ → Scheduler σ
  | 0, s => s
  | n + 1, s => ticks n s.tick.2

/-- Slots run until the program has ended by itself, at most `n` of them. -/
def workUntilExited : Nat → Scheduler σ → Scheduler σ
  | 0, s => s
  | n + 1, s => if s.events.contains .exited then s else workUntilExited n s.work

/-- Events received by the application, and the scheduler without them. -/
def takeEvents (s : Scheduler σ) : List SchedulerEvent × Scheduler σ :=
  (s.events, { s with events := [] })

end Scheduler

/-- Line of a fault met by the cycle that fetched at `pc`. -/
def Fault.warning (pc : UInt16) (fault : Fault) : LogLine :=
  ⟨.warn, addressLabel pc ++ ": " ++ fault.message ++ " (code " ++
    Numeral.decimal fault.code ++ ")"⟩

/-- Lines that a request writes: none unless it was refused. -/
def ToneCall.log (call : ToneCall) : List LogLine :=
  match call.request, call.refusal with
  | _, none => []
  | .start, some reason => [⟨.error, "couldn't start tone: " ++ reason⟩]
  | .stop, some reason => [⟨.error, "couldn't stop tone: " ++ reason⟩]

/-- Lines that a slot writes: the cycle, its faults, refused requests. -/
def TickReport.log (report : TickReport) : List LogLine :=
  (match report.step with
    | none => []
    | some step => step.log ++ step.faults.map (Fault.warning step.pc)) ++
    report.tones.flatMap ToneCall.log

end Schip
