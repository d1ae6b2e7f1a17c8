import Schip.Proofs.Scheduler.Worker

/-!
# Audio cannot disturb a run

The device takes requests and answers them, and nobody looks at the answers. So a run with another
device, of another kind even, that refuses whatever it likes and sounds whenever it likes, is the
same run: every slot and every control operation answers the same, and the states differ in their
devices alone. `independent_of_sound` says so of operations in any order, and of incidents, where
the worker runs in its loop and may end.

`Scheduler.withSound` exchanges the device. `tick_withSound` and `control_withSound` are the step
lemmas, `transcript_eq` is the induction.
-/

set_option autoImplicit false

namespace Schip

/-- Report of a slot without the requests on the device. -/
def TickReport.heard (report : TickReport) : Option Step × List SchedulerEvent :=
  (report.step, report.events)

/-- Answer of an operation or an incident, without the requests on the device. -/
inductive Answer where
  | slot (result : Except MachineError (Option Step × List SchedulerEvent))
  | control (result : Except MachineError Reply)
  /-- Nobody is there to answer, or nothing was asked. -/
  | nothing

/-! ## Transcripts -/

section Transcript

variable {S T α β : Type}

/-- Answers of a system to inputs in order. -/
def transcript (answer : S → α → β) (step : S → α → S) : S → List α → List β
  | _, [] => []
  | s, input :: rest => answer s input :: transcript answer step (step s input) rest

/-- Systems in related states, which answer the same and stay related, have the same transcript. -/
theorem transcript_eq {related : S → T → Prop} {answer : S → α → β} {step : S → α → S}
    {answer' : T → α → β} {step' : T → α → T}
    (hstep : ∀ s t input, related s t →
      answer' t input = answer s input ∧ related (step s input) (step' t input))
    {s : S} {t : T} (h : related s t) (inputs : List α) :
    transcript answer' step' t inputs = transcript answer step s inputs ∧
      related (inputs.foldl step s) (inputs.foldl step' t) := by
  induction inputs generalizing s t with
  | nil => exact ⟨rfl, h⟩
  | cons input rest ih =>
      obtain ⟨hanswer, hnext⟩ := hstep s t input h
      obtain ⟨hrest, hend⟩ := ih hnext
      refine ⟨?_, hend⟩
      rw [transcript, transcript, hanswer, hrest]

end Transcript

namespace Scheduler

variable {σ τ : Type}

/-- Scheduler with another device. -/
def withSound (s : Scheduler σ) (device : τ) : Scheduler τ := { s with sound := device }

/-! ## Control operations -/

theorem lock_withSound (s : Scheduler σ) (device : τ) : (s.withSound device).lock = s.lock := rfl

theorem reset_withSound (s : Scheduler σ) (device : τ) :
    (s.withSound device).reset = (s.reset.1, s.reset.2.withSound device) := by
  rw [reset, reset, lock_withSound]
  cases s.lock <;> rfl

theorem restart_withSound (s : Scheduler σ) (device : τ) :
    (s.withSound device).restart = (s.restart.1, s.restart.2.withSound device) := by
  rw [restart, restart, lock_withSound]
  cases s.lock with
  | error error => rfl
  | ok machine =>
      dsimp only
      rcases machine.restart with ⟨_ | _, _⟩ <;> rfl

theorem afterLoad_withSound (s : Scheduler σ) (device : τ)
    (loaded : Except MachineError Nat × Machine) : (s.withSound device).afterLoad loaded =
      ((s.afterLoad loaded).1, (s.afterLoad loaded).2.withSound device) := by
  rw [afterLoad_eq, afterLoad_eq]
  rfl

theorem reload_withSound (s : Scheduler σ) (device : τ) (program : List UInt8) :
    (s.withSound device).reload program =
      ((s.reload program).1, (s.reload program).2.withSound device) := by
  rw [reload, reload, lock_withSound]
  cases s.lock with
  | error error => rfl
  | ok machine => exact s.afterLoad_withSound device _

theorem loadFile_withSound (s : Scheduler σ) (device : τ) (file : ProgramFile) :
    (s.withSound device).loadFile file =
      ((s.loadFile file).1, (s.loadFile file).2.withSound device) := by
  rw [loadFile, loadFile, lock_withSound]
  cases s.lock with
  | error error => rfl
  | ok machine => exact s.afterLoad_withSound device _

theorem reply_withSound {α : Type} (wrap : α → Reply)
    (answer : Except MachineError α × Scheduler σ) (device : τ) :
    reply wrap (answer.1, answer.2.withSound device) =
      ((reply wrap answer).1, (reply wrap answer).2.withSound device) := by
  rcases answer with ⟨_ | _, _⟩ <;> rfl

/-- Control operations take no notice of the device. -/
theorem control_withSound (s : Scheduler σ) (device : τ) (control : Control) :
    (s.withSound device).control control =
      ((s.control control).1, (s.control control).2.withSound device) := by
  cases control with
  | pause | resume | togglePause => rfl
  | reset =>
      rw [Scheduler.control, reset_withSound]
      exact reply_withSound _ s.reset device
  | restart =>
      rw [Scheduler.control, restart_withSound]
      exact reply_withSound .flag s.restart device
  | reload program =>
      rw [Scheduler.control, reload_withSound]
      exact reply_withSound .size (s.reload program) device
  | loadFile file =>
      rw [Scheduler.control, loadFile_withSound]
      exact reply_withSound .size (s.loadFile file) device

/-! ## Slots -/

/-- The schedulers differ in their devices at most. -/
def SameButSound (s : Scheduler σ) (t : Scheduler τ) : Prop := ∃ device, t = s.withSound device

variable [Sound σ] [Sound τ]

/-- A slot with a cycle reports the same and leaves the same state with any device, but for the
device itself. -/
theorem activeSlot_withSound (s : Scheduler σ) (device : τ) :
    (s.withSound device).activeSlot.1.heard = s.activeSlot.1.heard ∧
      s.activeSlot.2.SameButSound (s.withSound device).activeSlot.2 :=
  ⟨rfl, _, rfl⟩

theorem idleSlot_withSound (s : Scheduler σ) (device : τ) :
    (s.withSound device).idleSlot.1.heard = s.idleSlot.1.heard ∧
      s.idleSlot.2.SameButSound (s.withSound device).idleSlot.2 :=
  ⟨rfl, _, rfl⟩

/-- One slot: the same answer, and again the same state but for the device. -/
theorem tick_withSound (s : Scheduler σ) (device : τ) :
    (s.withSound device).tick.1.map TickReport.heard = s.tick.1.map TickReport.heard ∧
      s.tick.2.SameButSound (s.withSound device).tick.2 := by
  cases hp : s.poisoned with
  | true =>
      have hp' : (s.withSound device).poisoned = true := hp
      rw [tick_eq_of_poisoned hp, tick_eq_of_poisoned hp']
      exact ⟨rfl, device, rfl⟩
  | false =>
      have hp' : (s.withSound device).poisoned = false := hp
      cases hactive : s.isActive with
      | true =>
          have hactive' : (s.withSound device).isActive = true := hactive
          obtain ⟨hheard, hnext⟩ := s.aged.activeSlot_withSound device
          rw [tick_eq_of_active hp hactive, tick_eq_of_active hp' hactive']
          exact ⟨congrArg Except.ok hheard, hnext⟩
      | false =>
          have hidle' : (s.withSound device).isActive = false := hactive
          obtain ⟨hheard, hnext⟩ := s.aged.idleSlot_withSound device
          rw [tick_eq_of_idle hp hactive, tick_eq_of_idle hp' hidle']
          exact ⟨congrArg Except.ok hheard, hnext⟩

theorem stop_withSound (s : Scheduler σ) (device : τ) :
    s.stop.2.SameButSound (s.withSound device).stop.2 := by
  have hrunning : (s.withSound device).running = s.running := rfl
  rw [stop, stop, hrunning]
  split
  · exact ⟨_, rfl⟩
  · exact ⟨device, rfl⟩

/-- The worker's loop goes on in the same way with any device. -/
theorem work_withSound (s : Scheduler σ) (device : τ) :
    s.work.SameButSound (s.withSound device).work := by
  cases hrunning : s.running with
  | false =>
      have hrunning' : (s.withSound device).running = false := hrunning
      rw [work_of_ended hrunning, work_of_ended hrunning']
      exact ⟨device, rfl⟩
  | true =>
      have hrunning' : (s.withSound device).running = true := hrunning
      cases hp : s.poisoned with
      | true =>
          have hp' : (s.withSound device).poisoned = true := hp
          rw [work_of_poisoned hrunning hp, work_of_poisoned hrunning' hp']
          exact s.stop_withSound device
      | false =>
          have hp' : (s.withSound device).poisoned = false := hp
          cases hactive : s.isActive with
          | true =>
              have hactive' : (s.withSound device).isActive = true := hactive
              rw [work_of_active hrunning hp hactive, work_of_active hrunning' hp' hactive']
              exact (s.aged.activeSlot_withSound device).2
          | false =>
              have hidle' : (s.withSound device).isActive = false := hactive
              rw [work_of_idle hrunning hp hactive, work_of_idle hrunning' hp' hidle']
              exact (s.aged.idleSlot_withSound device).2

/-! ## Runs -/

/-- Answer of an operation. -/
def answer (s : Scheduler σ) : Operation → Answer
  | .tick keys => .slot ((s.showKeys keys).tick.1.map TickReport.heard)
  | .control control => .control (s.control control).1

/-- Answer of an incident. A worker that has ended answers nothing. -/
def answerIncident (s : Scheduler σ) : Incident → Answer
  | .slot keys => if s.running then s.answer (.tick keys) else .nothing
  | .control control => s.answer (.control control)
  | .poison | .stop => .nothing

/-- An operation has the same answer and effect with any device. -/
theorem operate_withSound (s : Scheduler σ) (device : τ) (operation : Operation) :
    (s.withSound device).answer operation = s.answer operation ∧
      (s.operate operation).SameButSound ((s.withSound device).operate operation) := by
  cases operation with
  | tick keys =>
      obtain ⟨hheard, hnext⟩ := (s.showKeys keys).tick_withSound device
      exact ⟨congrArg Answer.slot hheard, hnext⟩
  | control control =>
      have hcontrol := s.control_withSound device control
      exact ⟨congrArg Answer.control (congrArg Prod.fst hcontrol), device,
        congrArg Prod.snd hcontrol⟩

/-- An incident has the same answer and effect with any device. -/
theorem undergo_withSound (s : Scheduler σ) (device : τ) (incident : Incident) :
    (s.withSound device).answerIncident incident = s.answerIncident incident ∧
      (s.undergo incident).SameButSound ((s.withSound device).undergo incident) := by
  cases incident with
  | slot keys =>
      have hrunning : (s.withSound device).running = s.running := rfl
      refine ⟨?_, (s.showKeys keys).work_withSound device⟩
      rw [answerIncident, answerIncident, hrunning, (s.operate_withSound device (.tick keys)).1]
  | control control => exact s.operate_withSound device (.control control)
  | poison => exact ⟨rfl, device, rfl⟩
  | stop => exact ⟨rfl, s.stop_withSound device⟩

/-- Schedulers that differ in their devices alone answer every operation and every incident the same
and go on to differ in their devices alone, whatever the devices are and do. -/
theorem independent_of_sound (s : Scheduler σ) (device : τ) (operations : List Operation)
    (incidents : List Incident) :
    (transcript answer operate (s.withSound device) operations =
        transcript answer operate s operations ∧
      (s.operateAll operations).SameButSound ((s.withSound device).operateAll operations)) ∧
    (transcript answerIncident undergo (s.withSound device) incidents =
        transcript answerIncident undergo s incidents ∧
      (s.undergoAll incidents).SameButSound ((s.withSound device).undergoAll incidents)) := by
  have hsame : s.SameButSound (s.withSound device) := ⟨device, rfl⟩
  constructor
  · apply transcript_eq _ hsame
    rintro t _ operation ⟨other, rfl⟩
    exact t.operate_withSound other operation
  · apply transcript_eq _ hsame
    rintro t _ incident ⟨other, rfl⟩
    exact t.undergo_withSound other incident

end Scheduler

end Schip
