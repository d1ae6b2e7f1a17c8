import Schip.Proofs.Session.Ending
import Schip.Proofs.Sound.Alternation

/-!
# A poisoned lock

Once another user of the machine has failed while holding it, its lock gives it to nobody any more.
Slots and the control operations that need the machine fail then and change nothing; the flag of the
pause and the keypad are not behind the lock and go on as ever. So what operations leave of a
scheduler is known without running them: the same scheduler with the flag and the keys as they were
last set (`operateAll_of_poisoned`). The worker's loop ends at the first slot and takes the tone
with it (`undergoAll_of_poisoned`).

The loop of the application meets the lock when it wants to show a frame, if nothing ended it before
that (`afterPoll_of_poisoned`). An iteration in which the lock is poisoned is the last one and shows
nothing.
-/

set_option autoImplicit false

namespace Schip

/-- Failure to take a poisoned lock. -/
def MachineError.refused : MachineError := .poisoned MachineError.poisonReason

/-- Flag of the pause after a control operation, if those that need the machine fail. -/
def Control.pausedAfter (paused : Bool) : Control → Bool
  | .pause => true
  | .resume => false
  | .togglePause => !paused
  | .reset | .restart | .reload _ | .loadFile _ => paused

/-- Flag of the pause after an operation, if those that need the machine fail. -/
def Operation.pausedAfter (paused : Bool) : Operation → Bool
  | .tick _ => paused
  | .control request => request.pausedAfter paused

/-- Keys after an operation. -/
def Operation.keysAfter (keys : Keypad) : Operation → Keypad
  | .tick shown => shown
  | .control _ => keys

/-- Operation that an incident comes to for all but the worker's loop. -/
def Incident.operation? : Incident → Option Operation
  | .slot keys => some (.tick keys)
  | .control request => some (.control request)
  | .poison | .stop => none

/-- Whether an incident ends a worker that cannot take the lock. -/
def Incident.ends : Incident → Bool
  | .slot _ | .stop => true
  | .control _ | .poison => false

namespace Scheduler

variable {σ : Type} {s : Scheduler σ}

/-- Scheduler with the flag of the pause and the keys as operations set them. -/
def frozen (s : Scheduler σ) (operations : List Operation) : Scheduler σ :=
  { s with
    machine := s.machine.withKeypad (operations.foldl Operation.keysAfter s.machine.keypad)
    paused := operations.foldl Operation.pausedAfter s.paused }

theorem frozen_append (s : Scheduler σ) (operations rest : List Operation) :
    s.frozen (operations ++ rest) = (s.frozen operations).frozen rest := by
  rw [frozen, List.foldl_append, List.foldl_append]
  rfl

variable [Sound σ]

/-- Scheduler whose worker has ended and left the tone. -/
def ended (s : Scheduler σ) : Scheduler σ :=
  { s with running := false, sound := (ToneCall.silence s.sound).2 }

/-- Nothing that needs the machine succeeds or has an effect. -/
structure Refuses (s : Scheduler σ) : Prop where
  tick : s.tick = (.error .refused, s)
  reset : s.reset = (.error .refused, s)
  restart : s.restart = (.error .refused, s)
  reload : ∀ program, s.reload program = (.error .refused, s)
  loadFile : ∀ file, s.loadFile file = (.error .refused, s)
  pause : s.pause = { s with paused := true }
  resume : s.resume = { s with paused := false }
  togglePause : s.togglePause = (!s.paused, { s with paused := !s.paused })
  /-- The worker's loop ends. -/
  work : s.work = if s.running then s.ended else s

/-! ## One operation -/

theorem stop_eq_ended (s : Scheduler σ) : s.stop.2 = if s.running then s.ended else s := by
  rw [stop, ended]
  split <;> rfl

/-- Under a poisoned lock nothing that needs the machine succeeds or has an effect. -/
theorem refuses_of_poisoned (h : s.poisoned = true) : s.Refuses where
  tick := tick_eq_of_poisoned h
  reset := by rw [reset, lock_of_poisoned h, MachineError.refused]
  restart := by rw [restart, lock_of_poisoned h, MachineError.refused]
  reload := fun _ => by rw [reload, lock_of_poisoned h, MachineError.refused]
  loadFile := fun _ => by rw [loadFile, lock_of_poisoned h, MachineError.refused]
  pause := rfl
  resume := rfl
  togglePause := rfl
  work := by
    cases hrunning : s.running with
    | true =>
        rw [work_of_poisoned hrunning h, stop_eq_ended, hrunning]
    | false => exact work_of_ended hrunning

/-- Under a poisoned lock an operation sets no more than the flag of the pause and the keys. -/
theorem operate_of_poisoned (h : s.poisoned = true) (operation : Operation) :
    s.operate operation = s.frozen [operation] := by
  cases operation with
  | tick keys => exact tick_of_poisoned h
  | control control =>
      cases hlocks : control.locks with
      | true =>
          rw [operate, control_of_poisoned h hlocks]
          cases control with
          | pause | resume | togglePause => cases hlocks
          | reset | restart | reload | loadFile => rfl
      | false =>
          cases control with
          | pause | resume | togglePause => rfl
          | reset | restart | reload | loadFile => cases hlocks

/-- Under a poisoned lock an incident does what its operation does, but for the end of the
worker. -/
theorem undergo_of_poisoned (h : s.poisoned = true) (incident : Incident) :
    s.undergo incident =
      (if s.running && incident.ends then s.ended else s).frozen incident.operation?.toList := by
  cases incident with
  | slot keys =>
      have hshown : (s.showKeys keys).poisoned = true := h
      rw [undergo, (refuses_of_poisoned hshown).work]
      show (if s.running then (s.showKeys keys).ended else s.showKeys keys) = _
      cases s.running <;> rfl
  | control control =>
      rw [Incident.ends, Bool.and_false]
      exact operate_of_poisoned h (.control control)
  | poison =>
      rw [Incident.ends, Bool.and_false]
      exact congrArg (fun poisoned => { s with poisoned := poisoned }) h.symm
  | stop =>
      rw [undergo, stop_eq_ended, Incident.ends, Bool.and_true]
      rfl

/-! ## Sequences -/

/-- Operations under a poisoned lock leave the scheduler frozen. -/
theorem operateAll_of_poisoned (h : s.poisoned = true) (operations : List Operation) :
    s.operateAll operations = s.frozen operations := by
  induction operations generalizing s with
  | nil => rfl
  | cons operation rest ih =>
      have hnext : (s.frozen [operation]).poisoned = true := h
      rw [operateAll_cons, operate_of_poisoned h, ih hnext]
      rfl

/-- Incidents under a poisoned lock: what the operations among them leave, and the end of the worker
at the first slot. -/
theorem undergoAll_of_poisoned (h : s.poisoned = true) (incidents : List Incident) :
    s.undergoAll incidents =
      (if s.running && incidents.any Incident.ends then s.ended else s).frozen
        (incidents.filterMap Incident.operation?) := by
  induction incidents generalizing s with
  | nil =>
      rw [List.any_nil, Bool.and_false]
      rfl
  | cons incident rest ih =>
      have hsplit : (incident :: rest).filterMap Incident.operation? =
          incident.operation?.toList ++ rest.filterMap Incident.operation? := by
        rw [List.filterMap_cons]
        cases incident.operation? <;> rfl
      rw [undergoAll_cons, undergo_of_poisoned h, hsplit, frozen_append, List.any_cons]
      cases hends : s.running && incident.ends with
      | true =>
          -- a worker that has ended does not end again
          obtain ⟨hrunning, hincident⟩ := Bool.and_eq_true_iff.1 hends
          have hnext := ih (s := s.ended.frozen incident.operation?.toList) h
          rw [hrunning, hincident]
          exact hnext
      | false =>
          have hnext := ih (s := s.frozen incident.operation?.toList) h
          have hrunning : (s.frozen incident.operation?.toList).running = s.running := rfl
          have hlater : (s.running && (incident.ends || rest.any Incident.ends)) =
              (s.running && rest.any Incident.ends) := by
            rw [Bool.and_or_distrib_left, hends, Bool.false_or]
          rw [hrunning] at hnext
          rw [hlater, if_neg Bool.false_ne_true, hnext]
          cases s.running && rest.any Incident.ends <;> rfl

end Scheduler

/-! ## The loop of the application -/

namespace Session

section Input

variable {σ : Type} {s : Scheduler σ}

/-- Ending of an iteration that cannot take the lock, by the events of the scheduler that wait and
by the answer of the input. -/
def refusedEnding (queued : List SchedulerEvent) :
    Except String (List InputEvent) → Except SessionError Unit
  | .error reason => .error (.input reason)
  | .ok events =>
    -- what the input asks for first
    if .quit ∈ events.takeWhile (· ≠ .reset) then .ok ()
    else if .reset ∈ events then .error (.control .refused)
    else if .exited ∈ queued then .ok ()
    else .error .lock

/-- Under a poisoned lock the first reset is refused, unless a quit comes before it. -/
theorem applyEvents_of_poisoned (h : s.poisoned = true) (events : List InputEvent) :
    ∃ s', applyEvents s events =
        (if .quit ∈ events.takeWhile (· ≠ .reset) then .ok .finished
          else if .reset ∈ events then .error (.control .refused) else .ok .goOn, s') ∧
      s'.poisoned = true ∧ s'.events = s.events := by
  induction events generalizing s with
  | nil => exact ⟨s, rfl, h, rfl⟩
  | cons event rest ih =>
      cases event with
      | keyDown key =>
          obtain ⟨s', happly, hkept⟩ := ih (s := s.setKey key true) h
          exact ⟨s', by simpa [applyEvents] using happly, hkept⟩
      | keyUp key =>
          obtain ⟨s', happly, hkept⟩ := ih (s := s.setKey key false) h
          exact ⟨s', by simpa [applyEvents] using happly, hkept⟩
      | togglePause =>
          obtain ⟨s', happly, hkept⟩ := ih (s := s.togglePause.2) h
          exact ⟨s', by simpa [applyEvents] using happly, hkept⟩
      | reset =>
          refine ⟨s, ?_, h, rfl⟩
          simp [applyEvents, Scheduler.restart, Scheduler.lock_of_poisoned h, MachineError.refused]
      | quit => exact ⟨s, by simp [applyEvents], h, rfl⟩

variable {δ : Type} [Display δ]

theorem showFrame_of_poisoned (h : s.poisoned = true) (display : δ) :
    showFrame s display = (.error .lock, display) := by
  rw [showFrame, Scheduler.lock_of_poisoned h]

/-- An iteration that cannot take the lock is the last one and shows nothing. -/
theorem afterPoll_of_poisoned (h : s.poisoned = true) (display : δ)
    (poll : Except String (List InputEvent)) :
    ∃ left, afterPoll s display poll =
      ((refusedEnding s.events poll).map fun _ => .finished, left, display) := by
  cases poll with
  | error reason => exact ⟨s, rfl⟩
  | ok events =>
      obtain ⟨s', happly, hpoisoned, hqueued⟩ := applyEvents_of_poisoned h events
      rw [refusedEnding]
      by_cases hquit : .quit ∈ events.takeWhile (· ≠ .reset)
      · rw [if_pos hquit] at happly ⊢
        exact ⟨s', by simp only [afterPoll, happly, Except.map]⟩
      · rw [if_neg hquit] at happly ⊢
        by_cases hreset : .reset ∈ events
        · rw [if_pos hreset] at happly ⊢
          exact ⟨s', by simp only [afterPoll, happly, Except.map]⟩
        · rw [if_neg hreset] at happly ⊢
          by_cases hexited : .exited ∈ s.events
          · rw [if_pos hexited]
            exact ⟨_, afterPoll_of_exited happly (hqueued ▸ hexited) display⟩
          · rw [if_neg hexited]
            have hafter := afterPoll_of_not_exited happly (hqueued ▸ hexited) display
            have hreceived : ({ s' with events := [] } : Scheduler σ).poisoned = true := hpoisoned
            rw [showFrame_of_poisoned hreceived] at hafter
            exact ⟨_, hafter⟩

end Input

variable {σ δ : Type} [Sound σ] [Display δ] {s : Scheduler σ} {turn : Turn}

theorem poisoned_ticks (s : Scheduler σ) (n : Nat) :
    (Scheduler.ticks n s).poisoned = s.poisoned := by
  induction n generalizing s with
  | zero => rfl
  | succ n ih => exact (ih s.tick.2).trans (s.tick_frame s.machine.keypad).2

theorem poisoned_beforePoll (h : s.poisoned = true ∨ turn.poisons = true) :
    (beforePoll s turn).poisoned = true := by
  rw [beforePoll]
  split
  · rfl
  · next hsound => exact (poisoned_ticks s turn.ticks).trans (h.resolve_right hsound)

/-- The iteration that finds the lock poisoned is the last one of the session. -/
theorem runFrom_of_poisoned (h : s.poisoned = true ∨ turn.poisons = true) (polls : Nat)
    (display : δ) (rest : List Turn) :
    ∃ left, runFrom polls s display (turn :: rest) =
      ⟨refusedEnding (beforePoll s turn).events turn.poll, polls + 1, left, display⟩ := by
  obtain ⟨left, hafter⟩ := afterPoll_of_poisoned (poisoned_beforePoll h) display turn.poll
  refine ⟨left, ?_⟩
  rw [runFrom, hafter]
  cases refusedEnding (beforePoll s turn).events turn.poll <;> rfl

/-- What a poisoned lock does. Whatever operations follow, they leave what the flag of the pause and
the keys account for, and every slot and every control operation that needs the machine is refused
without an effect, on the sound device neither. In its loop the worker ends, and with it a tone that
can be stopped. An iteration of the application that meets the poisoned lock is the last one, shows
nothing, and fails unless the input asked for the end or the end of the program was waiting. -/
theorem poisoned_lock_freezes :
    (∀ s : Scheduler σ, s.poisoned = true →
      (∀ operations, (s.operateAll operations).Refuses ∧
        s.operateAll operations = s.frozen operations) ∧
      (∀ incidents, s.undergoAll incidents =
        (if s.running && incidents.any Incident.ends then s.ended else s).frozen
          (incidents.filterMap Incident.operation?)) ∧
      ((∀ device : σ, Sound.isSounding (Sound.stopTone device).2 = false) →
        Sound.isSounding s.ended.sound = false)) ∧
    ∀ (s : Scheduler σ) (turn : Turn), s.poisoned = true ∨ turn.poisons = true →
      ∀ (polls : Nat) (display : δ) (rest : List Turn),
        ∃ left, runFrom polls s display (turn :: rest) =
          ⟨refusedEnding (beforePoll s turn).events turn.poll, polls + 1, left, display⟩ := by
  refine ⟨fun s h => ⟨fun operations => ⟨?_, ?_⟩, ?_, ?_⟩, ?_⟩
  · exact Scheduler.refuses_of_poisoned ((s.poisoned_operateAll operations).trans h)
  · exact Scheduler.operateAll_of_poisoned h operations
  · exact Scheduler.undergoAll_of_poisoned h
  · exact fun hstops => ToneCall.isSounding_silence hstops s.sound
  · exact fun s turn h polls display rest => runFrom_of_poisoned h polls display rest

/-- A lock poisoned while the tone sounds and the end of the program waits to be received. -/
theorem poisoned_lock_freezes_sounding :
    let machine := Machine.new {} (RandomSource.ofSeed 1)
    let s : Scheduler (Recorded Mute) :=
      { Scheduler.started machine ⟨⟨true⟩, []⟩ 1.0 with poisoned := true, events := [.exited] }
    let operations : List Operation :=
      [.control .togglePause, .tick Keypad.clear, .control .restart]
    let incidents : List Incident := [.slot Keypad.clear, .stop]
    let ends (events : List InputEvent) := runFrom 0 s ({} : FrameCounter) [⟨1, false, .ok events⟩]
    s.poisoned = true ∧ (s.operateAll operations).restart.1 = .error .refused ∧
      (s.operateAll operations).paused = true ∧ (s.operateAll operations).sound.requests = [] ∧
      (s.undergoAll incidents).running = false ∧
      (s.undergoAll incidents).sound.requests = [.stop] ∧
      Sound.isSounding s.ended.sound = false ∧
      (ends []).ending = .ok () ∧ (ends []).display.frames = 0 ∧
      (ends [.reset, .quit]).ending = .error (.control .refused) := by
  intro machine s operations incidents ends
  obtain ⟨hscheduler, hsession⟩ :=
    poisoned_lock_freezes (σ := Recorded Mute) (δ := FrameCounter)
  obtain ⟨hoperations, hincidents, hsilent⟩ := hscheduler s rfl
  obtain ⟨hrefuses, hleft⟩ := hoperations operations
  obtain ⟨_, hreceived⟩ := hsession s ⟨1, false, .ok []⟩ (Or.inl rfl) 0 {} []
  obtain ⟨_, hreset⟩ := hsession s ⟨1, false, .ok [.reset, .quit]⟩ (Or.inl rfl) 0 {} []
  refine ⟨rfl, congrArg Prod.fst hrefuses.restart, ?_, ?_, ?_, ?_, hsilent fun _ => rfl, ?_, ?_, ?_⟩
  · rw [hleft]
    rfl
  · rw [hleft]
    rfl
  · rw [hincidents]
    rfl
  · rw [hincidents]
    rfl
  · exact congrArg SessionResult.ending hreceived
  · exact congrArg (fun result => result.display.frames) hreceived
  · exact congrArg SessionResult.ending hreset

end Session

end Schip
