import Schip.Proofs.Scheduler.Worker

/-!
# The course of a scheduler

What happens between two states of a scheduler whose worker runs. `Change` lists everything that an
incident can do, each with the machine on which it runs a cycle, if it runs one; `undergo_change`
says that the list is complete, so that a proof about incidents is a case analysis on `Change`.

Along a sequence of incidents, `cycles` are the machines on which a cycle was run, in order, and
`Throughout` says something of every incident in the state in which it happens. What every change
keeps, a course keeps (`undergoAll_induction`); `Throughout.quiet` is for courses without cycles.
-/

set_option autoImplicit false

namespace Schip.Scheduler

section Control

variable {σ : Type}

/-- Whether an incident is a load that succeeds. -/
def loads (s : Scheduler σ) : Incident → Bool
  | .control (.reload program) => (s.reload program).1.isOk
  | .control (.loadFile file) => (s.loadFile file).1.isOk
  | _ => false

/-- Whether an incident starts a program: a restart that finds one or a load that succeeds. -/
def starts (s : Scheduler σ) : Incident → Bool
  | .control .restart => restarted s.restart.1
  | incident => s.loads incident

/-- Nothing starts a program under a poisoned lock. -/
theorem starts_of_poisoned {s : Scheduler σ} (hp : s.poisoned = true) (incident : Incident) :
    s.starts incident = false := by
  cases incident with
  | slot | poison | stop => rfl
  | control control =>
      cases control with
      | pause | resume | togglePause | reset => rfl
      | restart => rw [starts, restart, lock_of_poisoned hp, restarted]
      | reload program =>
          show (s.reload program).1.isOk = false
          rw [reload, lock_of_poisoned hp]
          rfl
      | loadFile file =>
          show (s.loadFile file).1.isOk = false
          rw [loadFile, lock_of_poisoned hp]
          rfl

end Control

variable {σ : Type} [Sound σ]

/-- Machine on which an incident runs a cycle: the one that a slot finds whose report has a step. -/
def cycled (s : Scheduler σ) : Incident → Option Machine
  | .slot keys =>
    if s.running then
      match (s.showKeys keys).tick.1 with
      | .ok report => report.step.map fun _ => (s.showKeys keys).machine
      | .error _ => none
    else none
  | _ => none

/-- Machines on which incidents in order run a cycle. -/
def cycles (s : Scheduler σ) : List Incident → List Machine
  | [] => []
  | incident :: rest => (s.cycled incident).toList ++ (s.undergo incident).cycles rest

/-- Something holds of each of the incidents, in the state in which it happens. -/
def Throughout (s : Scheduler σ) (p : Scheduler σ → Incident → Prop) : List Incident → Prop
  | [] => True
  | incident :: rest => p s incident ∧ (s.undergo incident).Throughout p rest

/-- Everything that an incident can do, with the machine on which it runs a cycle. -/
inductive Change (s : Scheduler σ) : Incident → Option Machine → Scheduler σ → Prop
  /-- A slot with a cycle. -/
  | cycle (keys : Keypad) : s.running = true → s.poisoned = false → s.isActive = true →
      Change s (.slot keys) (some (s.showKeys keys).machine) (s.showKeys keys).aged.activeSlot.2
  /-- A slot that finds the scheduler paused or halted. -/
  | idle (keys : Keypad) : s.isActive = false →
      Change s (.slot keys) none (s.showKeys keys).aged.idleSlot.2
  /-- A slot that cannot take the lock. -/
  | failed (keys : Keypad) : s.poisoned = true →
      Change s (.slot keys) none (s.showKeys keys).stop.2
  /-- A slot after the end of the worker. -/
  | ended (keys : Keypad) : s.running = false → Change s (.slot keys) none (s.showKeys keys)
  | stop : Change s .stop none s.stop.2
  | poison : Change s .poison none s.poison
  /-- A control operation that touches no more than the flag of the pause. -/
  | flag (control : Control) (paused : Bool) : s.starts (.control control) = false →
      Change s (.control control) none { s with paused := paused }
  /-- A file that cannot be opened. -/
  | unopened (control : Control) : s.starts (.control control) = false →
      Change s (.control control) none { s with halted := true }
  | reset (control : Control) : s.starts (.control control) = false →
      Change s (.control control) none { s with machine := s.machine.reset, halted := true }
  /-- A load that fails, also that of the stored program. -/
  | emptied (control : Control) : s.starts (.control control) = false →
      Change s (.control control) none
        { s with machine := s.machine.reset.dropProgram, halted := true }
  /-- A program is started: one that was loaded, or the stored one. -/
  | started (control : Control) (program : List UInt8) :
      s.starts (.control control) = true → program.length ≤ Memory.programLimit →
      (s.loads (.control control) = true ∨ s.machine.program = some program) →
      Change s (.control control) none
        { s with machine := s.machine.loaded program, halted := false }

variable {s : Scheduler σ}

/-- The end of the worker touches no more than the worker and its device. -/
theorem stop_eq (s : Scheduler σ) :
    ∃ running sound, s.stop.2 = { s with running := running, sound := sound } := by
  rw [Scheduler.stop]
  split
  · exact ⟨false, (ToneCall.silence s.sound).2, rfl⟩
  · exact ⟨s.running, s.sound, rfl⟩

/-! ## Control operations -/

/-- A control operation that comes to a load either empties the machine or starts the program that
was read. -/
theorem change_afterLoad {control : Control} {source : ByteSource}
    (hstarts : s.starts (.control control) = s.loads (.control control))
    (hloads : s.loads (.control control) = (s.machine.loadProgram source).1.isOk)
    (hnext : (s.control control).2 = (s.afterLoad (s.machine.loadProgram source)).2) :
    s.Change (.control control) none (s.control control).2 := by
  rw [hnext, afterLoad_eq]
  rcases s.machine.loadProgram_cases source with ⟨error, heq⟩ | ⟨program, -, hfits, heq⟩
  · rw [heq] at hloads ⊢
    exact .emptied control (hstarts.trans hloads)
  · rw [heq] at hloads ⊢
    exact .started control program (hstarts.trans hloads) hfits (Or.inl hloads)

/-- A restart starts the stored program; without one it is a reset, and one that does not fit is
dropped. -/
theorem change_restart (hp : s.poisoned = false) :
    s.Change (.control .restart) none (s.control .restart).2 := by
  have hstarts : s.starts (.control .restart) = restarted s.machine.restart.1 := by
    rw [starts, restart_of_sound hp]
  rw [control, snd_reply, restart_of_sound hp]
  cases hprogram : s.machine.program with
  | none =>
      rw [Machine.restart_of_none hprogram] at hstarts ⊢
      exact .reset .restart hstarts
  | some program =>
      rw [Machine.restart_of_some hprogram] at hstarts ⊢
      rcases s.machine.dropProgram.loadProgram_cases (.ofBytes program) with
        ⟨error, heq⟩ | ⟨stored, hread, hfits, heq⟩
      · rw [heq] at hstarts ⊢
        exact .emptied .restart hstarts
      · rw [heq] at hstarts ⊢
        rw [Machine.readAll_ofBytes] at hread
        cases hread
        exact .started .restart program hstarts hfits (Or.inr hprogram)

/-- Each control operation makes one of the changes. -/
theorem change_control (s : Scheduler σ) (control : Control) :
    s.Change (.control control) none (s.control control).2 := by
  cases hp : s.poisoned with
  | true =>
      cases control with
      | pause | resume | togglePause => exact .flag _ _ rfl
      | reset | restart | reload | loadFile =>
          -- nothing that takes the lock does anything
          rw [control_of_poisoned hp rfl]
          exact .flag _ s.paused (starts_of_poisoned hp _)
  | false =>
      cases control with
      | pause | resume | togglePause => exact .flag _ _ rfl
      | reset =>
          rw [Scheduler.control, snd_reply, reset_of_sound hp]
          exact .reset .reset rfl
      | restart => exact change_restart hp
      | reload program =>
          apply change_afterLoad rfl
          · rw [loads, reload_of_sound hp, afterLoad_eq]
          · rw [Scheduler.control, snd_reply, reload_of_sound hp]
      | loadFile file =>
          cases hopen : file.openSource with
          | error reason =>
              have hload : s.machine.loadFile file = (.error (.io reason), s.machine) := by
                rw [Machine.loadFile, hopen]
              rw [Scheduler.control, snd_reply, loadFile_of_sound hp, afterLoad_eq, hload]
              refine .unopened _ ?_
              show s.loads (.control (.loadFile file)) = false
              rw [loads, loadFile_of_sound hp, afterLoad_eq, hload]
              rfl
          | ok source =>
              have hload : s.machine.loadFile file = s.machine.loadProgram source := by
                rw [Machine.loadFile, hopen]
              apply change_afterLoad rfl
              · rw [loads, loadFile_of_sound hp, afterLoad_eq, hload]
              · rw [Scheduler.control, snd_reply, loadFile_of_sound hp, hload]

/-! ## Incidents -/

/-- Each slot makes one of the changes, on the machine whose cycle it runs. -/
theorem change_slot (s : Scheduler σ) (keys : Keypad) :
    s.Change (.slot keys) (s.cycled (.slot keys)) (s.undergo (.slot keys)) := by
  have hundergo : s.undergo (.slot keys) = (s.showKeys keys).work := rfl
  have hrunning : (s.showKeys keys).running = s.running := rfl
  rw [hundergo, cycled, ← hrunning]
  rcases (s.showKeys keys).work_cases with ⟨hended, heq⟩ | ⟨hruns, hp, heq⟩ |
    ⟨hruns, hp, hactive, htick, heq⟩ | ⟨hruns, hp, hidle, heq⟩
  · rw [heq, hended]
    exact .ended keys hended
  · rw [heq, hruns, if_pos rfl, tick_eq_of_poisoned hp]
    exact .failed keys hp
  · rw [hruns, if_pos rfl, htick, heq]
    exact .cycle keys hruns hp hactive
  · rw [heq, hruns, if_pos rfl, tick_eq_of_idle hp hidle]
    exact .idle keys hidle

/-- The list of changes is complete. -/
theorem undergo_change (s : Scheduler σ) (incident : Incident) :
    s.Change incident (s.cycled incident) (s.undergo incident) := by
  cases incident with
  | slot keys => exact s.change_slot keys
  | control control => exact s.change_control control
  | poison => exact .poison
  | stop => exact .stop

/-! ## Courses -/

theorem undergoAll_append (s : Scheduler σ) (incidents rest : List Incident) :
    s.undergoAll (incidents ++ rest) = (s.undergoAll incidents).undergoAll rest :=
  List.foldl_append

theorem undergoAll_snoc (s : Scheduler σ) (incidents : List Incident) (incident : Incident) :
    s.undergoAll (incidents ++ [incident]) = (s.undergoAll incidents).undergo incident := by
  rw [undergoAll_append]
  rfl

/-- The cycles of incidents in two parts are those of the first part and then those of the
second. -/
theorem cycles_append (s : Scheduler σ) (incidents rest : List Incident) :
    s.cycles (incidents ++ rest) = s.cycles incidents ++ (s.undergoAll incidents).cycles rest := by
  induction incidents generalizing s with
  | nil => rfl
  | cons incident more ih =>
      rw [List.cons_append, cycles, ih, cycles, undergoAll_cons, List.append_assoc]

/-- What every change keeps, a course keeps. -/
theorem undergoAll_induction {I : Scheduler σ → Prop}
    (hstep : ∀ {s s' : Scheduler σ} {incident : Incident} {ran : Option Machine},
      I s → s.Change incident ran s' → I s') (h : I s) (incidents : List Incident) :
    I (s.undergoAll incidents) := by
  induction incidents generalizing s with
  | nil => exact h
  | cons incident rest ih => exact ih (hstep h (s.undergo_change incident))

/-- A course of which no change runs a cycle, as long as the incidents are of a certain kind. -/
theorem Throughout.quiet {I : Scheduler σ → Prop} {p : Scheduler σ → Incident → Prop}
    (hstep : ∀ {s s' : Scheduler σ} {incident : Incident} {ran : Option Machine},
      I s → p s incident → s.Change incident ran s' → ran = none ∧ I s')
    (h : I s) {incidents : List Incident} (hp : s.Throughout p incidents) :
    s.cycles incidents = [] ∧ I (s.undergoAll incidents) := by
  induction incidents generalizing s with
  | nil => exact ⟨rfl, h⟩
  | cons incident rest ih =>
      obtain ⟨hfirst, hrest⟩ := hp
      obtain ⟨hnone, hnext⟩ := hstep h hfirst (s.undergo_change incident)
      obtain ⟨hcycles, hend⟩ := ih hnext hrest
      refine ⟨?_, hend⟩
      rw [cycles, hnone, hcycles]
      rfl

end Schip.Scheduler
