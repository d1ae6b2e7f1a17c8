import Schip.Proofs.Machine.Anomalies
import Schip.Proofs.Scheduler.Course
import Schip.Proofs.Scheduler.HaltedReset

/-!
# The events of a scheduler

The application hears of every fault and of the end of the program, once, in order, and of nothing
else: from the start of a machine on, the events are the reports of the cycles that were run, and a
report is what can be said of a cycle before it is run (`Machine.reports`). After the end of a
program nothing happens until a program is started: no cycle, no event, and registers, memory and
logical pixels stay as they are. `events_exact` says both.

Faults are collected in the machine, and a slot sends whatever is there. What makes the attribution
exact is that nothing is there between slots (`faultless_change`). The machine that is left at the
end of a program is blank, and nothing that can happen to a blank machine before the next program
makes it other than blank (`Resting.change`).
-/

set_option autoImplicit false

namespace Schip

/-- Events of a cycle, said before it is run: one for each fault that it runs into, with the address
of the fetch, and the end of the program if the instruction is the one that ends it. -/
def Machine.reports (m : Machine) : List SchedulerEvent :=
  m.cycleFaults.map (.fault m.registers.pc) ++ if m.fetched? = some .exit then [.exited] else []

/-- A cycle of a machine without recorded faults sends its reports. -/
theorem Machine.events_cycle {m : Machine} (h : m.faults = []) : m.cycle.1.events = m.reports := by
  have hpc : m.cycle.1.pc = m.registers.pc := rfl
  have hfaults : m.cycle.1.faults = m.cycleFaults := by
    rw [m.faults_cycle.1, h, List.nil_append]
  have hexit : m.cycle.1.outcome = .exit ↔ m.fetched? = some .exit := by
    rw [← m.exit_iff, m.instruction_cycle]
  rw [Step.events, reports, hpc, hfaults]
  simp only [hexit]

namespace Scheduler

/-- The reset at the end of a program leaves no faults behind. -/
theorem faults_settle {m : Machine} (h : m.faults = []) (outcome : Outcome) :
    (settle outcome m).faults = [] := by
  rw [settle]
  split
  · rfl
  · exact h

variable {σ : Type} [Sound σ] {s s' : Scheduler σ} {incident : Incident} {ran : Option Machine}

/-! ## Attribution -/

/-- No fault is left in the machine. -/
theorem faultless_change (h : s.machine.faults = []) (hchange : s.Change incident ran s') :
    s'.machine.faults = [] := by
  cases hchange with
  | cycle keys =>
      rw [activeSlot_eq]
      exact faults_settle (Machine.faults_cycle _).2 _
  | failed keys =>
      obtain ⟨running, sound, heq⟩ := (s.showKeys keys).stop_eq
      rw [heq]
      exact h
  | stop =>
      obtain ⟨running, sound, heq⟩ := s.stop_eq
      rw [heq]
      exact h
  | idle | ended | poison | flag | unopened => exact h
  | reset | emptied | started => rfl

/-- A change sends the reports of its cycle, if it runs one. -/
theorem events_change (h : s.machine.faults = []) (hchange : s.Change incident ran s') :
    s'.events = s.events ++ ran.toList.flatMap Machine.reports := by
  cases hchange with
  | cycle keys =>
      have hcycle : (s.showKeys keys).aged.machine.cycle.1.events =
          (s.showKeys keys).aged.machine.reports := Machine.events_cycle h
      rw [activeSlot_eq, Option.toList_some, List.flatMap_singleton]
      -- the afterglow has no part in it
      exact congrArg (s.events ++ ·) hcycle
  | failed keys =>
      obtain ⟨running, sound, heq⟩ := (s.showKeys keys).stop_eq
      rw [heq, Option.toList_none, List.flatMap_nil, List.append_nil]
      rfl
  | stop =>
      obtain ⟨running, sound, heq⟩ := s.stop_eq
      rw [heq, Option.toList_none, List.flatMap_nil, List.append_nil]
  | idle | ended | poison | flag | unopened | reset | emptied | started =>
      exact (List.append_nil _).symm

/-- Of a machine without pending faults, the cycles that are run report all that is sent, in
order. -/
theorem events_undergoAll (h : s.machine.faults = []) (incidents : List Incident) :
    (s.undergoAll incidents).events = s.events ++ (s.cycles incidents).flatMap Machine.reports := by
  induction incidents generalizing s with
  | nil => exact (List.append_nil _).symm
  | cons incident rest ih =>
      have hchange := s.undergo_change incident
      rw [undergoAll_cons, ih (faultless_change h hchange), events_change h hchange, cycles,
        List.flatMap_append, List.append_assoc]

end Scheduler

theorem Machine.Fresh.faults {m : Machine} (h : m.Fresh) : m.faults = [] := by
  obtain ⟨config, random, rfl | ⟨source, rfl⟩⟩ := h
  · rfl
  · rcases (new config random).loadProgram_cases source with ⟨_, heq⟩ | ⟨program, -, -, heq⟩
    · rw [heq]
      rfl
    · rw [heq, faults_loaded]

namespace Scheduler

variable {σ : Type} [Sound σ] {s s' : Scheduler σ} {incident : Incident} {ran : Option Machine}

/-! ## Rest after the end of a program -/

/-- The scheduler is halted over a blank machine with the given memory, and has sent the given
events. -/
structure Resting (mem : Memory) (events : List SchedulerEvent) (s : Scheduler σ) : Prop where
  halted : s.halted = true
  blank : s.machine.Blank
  memory : s.machine.memory = mem
  events : s.events = events

/-- As long as no program is started, a scheduler at rest stays so, and runs no cycle. -/
theorem Resting.change {mem : Memory} {events : List SchedulerEvent} (hreset : mem.reset = mem)
    (h : s.Resting mem events) (hstarts : s.starts incident = false)
    (hchange : s.Change incident ran s') : ran = none ∧ s'.Resting mem events := by
  have hmemory : s.machine.memory.reset = mem := by rw [h.memory, hreset]
  cases hchange with
  | cycle keys hrunning hp hactive => simp [isActive, h.halted] at hactive
  | idle keys =>
      exact ⟨rfl, h.halted, (h.blank.withKeypad keys).faded, h.memory, h.events⟩
  | failed keys =>
      obtain ⟨running, sound, heq⟩ := (s.showKeys keys).stop_eq
      rw [heq]
      exact ⟨rfl, h.halted, h.blank.withKeypad keys, h.memory, h.events⟩
  | ended keys => exact ⟨rfl, h.halted, h.blank.withKeypad keys, h.memory, h.events⟩
  | stop =>
      obtain ⟨running, sound, heq⟩ := s.stop_eq
      rw [heq]
      exact ⟨rfl, h.halted, h.blank, h.memory, h.events⟩
  | poison | flag => exact ⟨rfl, h.halted, h.blank, h.memory, h.events⟩
  | unopened => exact ⟨rfl, rfl, h.blank, h.memory, h.events⟩
  | reset => exact ⟨rfl, rfl, Machine.blank_reset _, hmemory, h.events⟩
  | emptied => exact ⟨rfl, rfl, (Machine.blank_reset _).dropProgram, hmemory, h.events⟩
  | started control program hstarted => exact absurd (hstarts.symm.trans hstarted) (by decide)

/-- A slot that sends the end of the program leaves the scheduler at rest. -/
theorem resting_of_exited {sent : List SchedulerEvent}
    (hsent : s'.events = s.events ++ sent) (hexited : .exited ∈ sent)
    (hchange : s.Change incident ran s') :
    s'.Resting s'.machine.memory s'.events ∧ s'.machine.memory.reset = s'.machine.memory := by
  have hsilent : s'.events = s.events → False := by
    intro heq
    rw [heq, List.self_eq_append_right] at hsent
    rw [hsent] at hexited
    cases hexited
  cases hchange with
  | cycle keys hrunning hp hactive =>
      rw [activeSlot_eq] at hsent ⊢
      have hevents : (s.showKeys keys).aged.machine.cycle.1.events = sent :=
        List.append_cancel_left hsent
      have hexit : (s.showKeys keys).aged.machine.cycle.1.outcome = .exit := by
        rw [← hevents] at hexited
        simpa [Step.events] using hexited
      simp only [hexit, settle, if_pos]
      refine ⟨⟨?_, Machine.blank_reset _, rfl, rfl⟩, Memory.reset_reset _⟩
      exact Bool.or_true _
  | failed keys =>
      obtain ⟨running, sound, heq⟩ := (s.showKeys keys).stop_eq
      rw [heq] at hsilent
      exact (hsilent rfl).elim
  | stop =>
      obtain ⟨running, sound, heq⟩ := s.stop_eq
      rw [heq] at hsilent
      exact (hsilent rfl).elim
  | idle | ended | poison | flag | unopened | reset | emptied | started =>
      exact (hsilent rfl).elim

/-- Nothing happens in the incidents: no cycle, no event, and registers, memory and logical pixels
stay as they are. -/
structure Undisturbed (s : Scheduler σ) (incidents : List Incident) : Prop where
  cycles : s.cycles incidents = []
  events : (s.undergoAll incidents).events = s.events
  registers : (s.undergoAll incidents).machine.registers = s.machine.registers
  memory : (s.undergoAll incidents).machine.memory = s.machine.memory
  screen : (s.undergoAll incidents).machine.screen.SameLogical s.machine.screen

/-- A scheduler at rest is not disturbed by incidents that start no program. -/
theorem Resting.undisturbed (h : s.Resting s.machine.memory s.events)
    (hreset : s.machine.memory.reset = s.machine.memory) {incidents : List Incident}
    (hstarts : s.Throughout (fun t incident => t.starts incident = false) incidents) :
    s.Undisturbed incidents := by
  obtain ⟨hcycles, hend⟩ := hstarts.quiet (Resting.change hreset) h
  refine ⟨hcycles, hend.events, ?_, hend.memory, ?_, ?_⟩
  · rw [hend.blank.registers, h.blank.registers]
  · rw [hend.blank.mode, h.blank.mode]
  · rw [hend.blank.cells, h.blank.cells]

/-- From the start of a machine on, the events are the reports of the cycles that were run, in
order. After the end of a program nothing happens until a program is started. -/
theorem events_exact {machine : Machine} {poisoned : Bool} {sound : σ} {speed : Float}
    (hfresh : machine.Fresh) (hspawn : spawn machine poisoned sound speed = .ok s)
    (incidents : List Incident) :
    let reached := s.undergoAll incidents
    reached.events = (s.cycles incidents).flatMap Machine.reports ∧
      ∀ incident sent later,
        (reached.undergo incident).events = reached.events ++ sent → .exited ∈ sent →
        (reached.undergo incident).Throughout (fun t other => t.starts other = false) later →
        (reached.undergo incident).Undisturbed later := by
  intro reached
  have hs := eq_started_of_spawn hspawn
  constructor
  · have hfaults : s.machine.faults = [] := by
      rw [hs]
      exact hfresh.faults
    have hnone : s.events = [] := by
      rw [hs]
      rfl
    have hevents := events_undergoAll hfaults incidents
    rwa [hnone, List.nil_append] at hevents
  · intro incident sent later hsent hexited hstarts
    obtain ⟨hresting, hreset⟩ := resting_of_exited hsent hexited (reached.undergo_change incident)
    exact hresting.undisturbed hreset hstarts

/-- A program that ends in its second cycle, and is not started again: a pause, a reset and the end
of the pause do not wake it. -/
theorem events_exact_exit :
    let machine := ((Machine.new {} (RandomSource.ofSeed 1)).loadProgram
      (.ofBytes [0x6A, 0x07, 0x00, 0xFD])).2
    let s : Scheduler Mute := started machine {} 1.0
    let slot : Incident := .slot Keypad.clear
    let reached := s.undergoAll [slot]
    let later : List Incident :=
      [.control .pause, slot, .control .reset, .control .resume, slot]
    machine.Fresh ∧ spawn machine false {} 1.0 = .ok s ∧
      reached.events = (s.cycles [slot]).flatMap Machine.reports ∧
      ∃ sent, (reached.undergo slot).events = reached.events ++ sent ∧ .exited ∈ sent ∧
        (reached.undergo slot).Throughout (fun t other => t.starts other = false) later ∧
        (reached.undergo slot).Undisturbed later := by
  intro machine s slot reached later
  have hfresh : machine.Fresh := ⟨{}, RandomSource.ofSeed 1, Or.inr ⟨_, rfl⟩⟩
  have hspawn : spawn machine false {} 1.0 = .ok s := spawn_started _ _ _
  have hmachine : machine = (Machine.new {} (RandomSource.ofSeed 1)).loaded
      [0x6A, 0x07, 0x00, 0xFD] :=
    Machine.snd_loadProgram_ofBytes _ (by decide)
  have hword (i : Nat) (h : i + 1 < 4) :=
    @Machine.word_loaded (Machine.new {} (RandomSource.ofSeed 1))
      [0x6A, 0x07, 0x00, 0xFD] i h (by decide)
  obtain ⟨hpoised, -⟩ := (poised_of_spawn hmachine hspawn).slot (fun r => r.setV 0xA 7)
    (hword 0 (by decide)) (fun _ => rfl) (by decide) Keypad.clear
  have hreached : reached = s.undergo slot := by
    simp only [reached, undergoAll_cons]
    rw [undergoAll, List.foldl_nil]
  rw [← hreached] at hpoised
  obtain ⟨sent, hsent, hexited⟩ := hpoised.slot_of_exit
    (hword 2 (by decide)) (by decide) Keypad.clear
  have hstarts (t : Scheduler Mute) : t.Throughout (fun t other => t.starts other = false) later :=
    ⟨rfl, rfl, rfl, rfl, rfl, trivial⟩
  -- what is left to say is about any scheduler in that state
  clear_value s machine
  obtain ⟨hevents, hrest⟩ := events_exact hfresh hspawn [slot]
  exact ⟨hfresh, hspawn, hevents, sent, hsent, hexited, hstarts _,
    hrest slot sent later hsent hexited (hstarts _)⟩

end Scheduler

end Schip
