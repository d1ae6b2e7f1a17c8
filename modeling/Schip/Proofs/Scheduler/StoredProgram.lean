import Schip.Proofs.Machine.Renewal
import Schip.Proofs.Scheduler.Course

/-!
# The stored program

Only a program that was loaded is ever run, and nothing but a request to load another one makes the
machine forget it. A restart takes the program out of its place and loads it again; the load cannot
fail, because a program is stored only if it fits. A reload that fails leaves no program, so nothing
but a load can end the halt that follows it.

`Stocked` is the invariant, and `program_safe` says what follows from it for every state that can be
reached. `Starved` is what a failed reload leaves: `Starved.change` keeps it, without a cycle, until
a load succeeds.
-/

set_option autoImplicit false

namespace Schip

/-- Whether an incident is a request to load another program. -/
def Incident.asksForLoad : Incident → Bool
  | .control (.reload _) | .control (.loadFile _) => true
  | _ => false

namespace Scheduler

variable {σ : Type}

/-- A scheduler that is not halted has a program, and a stored program fits. -/
structure Stocked (s : Scheduler σ) : Prop where
  hasProgram : s.halted = false → s.machine.hasProgram = true
  fits : ∀ program, s.machine.program = some program → program.length ≤ Memory.programLimit

/-- Nothing can be run: the machine cannot be reached, or there is no program. -/
def Starved (s : Scheduler σ) : Prop :=
  s.poisoned = true ∨ (s.halted = true ∧ s.machine.program = none)

theorem stocked_of_spawn {config : Config} {random : RandomSource} {history : List Handling}
    {poisoned : Bool} {sound : σ} {speed : Float} {s : Scheduler σ}
    (hspawn : spawn ((Machine.new config random).handleAll history) poisoned sound speed = .ok s) :
    s.Stocked := by
  rw [eq_started_of_spawn hspawn]
  have hconfigured := (Machine.configured_new config random).handleAll history
  refine ⟨?_, hconfigured.fits⟩
  intro hhalted
  simpa [started] using hhalted

/-- A restart with a stored program runs it, and without one halts; it stores what was stored. -/
theorem Stocked.restart {s : Scheduler σ} (h : s.Stocked) (hp : s.poisoned = false) :
    s.restart.1 = .ok s.machine.hasProgram ∧ s.restart.2.machine.program = s.machine.program ∧
      s.restart.2.halted = !s.machine.hasProgram := by
  rw [restart_of_sound hp, Machine.hasProgram]
  cases hprogram : s.machine.program with
  | none =>
      rw [Machine.restart_of_none hprogram]
      exact ⟨rfl, hprogram, rfl⟩
  | some program =>
      rw [Machine.restart_of_fits hprogram (h.fits program hprogram)]
      exact ⟨rfl, rfl, rfl⟩

/-- A reload fails at a poisoned lock or at a program that does not fit; either way nothing can be
run after it. -/
theorem starved_of_failed_reload {s : Scheduler σ} {program : List UInt8} {error : MachineError}
    (hfailed : (s.reload program).1 = .error error) : (s.reload program).2.Starved := by
  cases hp : s.poisoned with
  | true =>
      rw [reload, lock_of_poisoned hp]
      exact Or.inl hp
  | false =>
      rw [reload_of_sound hp, afterLoad_eq] at hfailed ⊢
      rcases s.machine.loadProgram_cases (.ofBytes program) with ⟨reason, heq⟩ | ⟨stored, -, -, heq⟩
      · rw [heq]
        exact Or.inr ⟨rfl, rfl⟩
      · rw [heq] at hfailed
        cases hfailed

variable [Sound σ] {s s' : Scheduler σ} {incident : Incident} {ran : Option Machine}

/-- What holds of the stored program in a state, and after whatever may follow. -/
structure ProgramSafe (s : Scheduler σ) : Prop where
  /-- Without a halt there is a program, and it fits. -/
  stored : s.halted = false →
    ∃ program, s.machine.program = some program ∧ program.length ≤ 3584
  /-- A restart does not fail, keeps the program, and halts exactly if there is none. -/
  restarts : s.poisoned = false → s.restart.1 = .ok s.machine.hasProgram ∧
    s.restart.2.machine.program = s.machine.program ∧
    (s.restart.2.halted = true ↔ s.machine.hasProgram = false)
  /-- Nothing changes the stored program but a request to load another one. -/
  kept : ∀ incident : Incident, incident.asksForLoad = false →
    (s.undergo incident).machine.program = s.machine.program
  /-- After a reload that fails no cycle is run until a load succeeds. -/
  quiet : ∀ program error later, (s.reload program).1 = .error error →
    (s.reload program).2.Throughout (fun t other => t.loads other = false) later →
    (s.reload program).2.cycles later = []

/-! ## The invariant -/

/-- Every change keeps the stored program fit to be loaded again. -/
theorem Stocked.change (h : s.Stocked) (hchange : s.Change incident ran s') : s'.Stocked := by
  cases hchange with
  | cycle keys =>
      have hprogram := program_activeSlot (s.showKeys keys).aged
      constructor
      · intro hhalted
        rw [Machine.hasProgram, hprogram]
        rw [activeSlot_eq] at hhalted
        exact h.hasProgram (Bool.or_eq_false_iff.1 hhalted).1
      · rw [hprogram]
        exact h.fits
  | failed keys =>
      obtain ⟨running, sound, heq⟩ := (s.showKeys keys).stop_eq
      rw [heq]
      exact ⟨h.hasProgram, h.fits⟩
  | stop =>
      obtain ⟨running, sound, heq⟩ := s.stop_eq
      rw [heq]
      exact ⟨h.hasProgram, h.fits⟩
  | idle | ended | poison | flag => exact ⟨h.hasProgram, h.fits⟩
  | unopened | reset => exact ⟨nofun, h.fits⟩
  | emptied => exact ⟨nofun, nofun⟩
  | started control program _ hfits =>
      refine ⟨fun _ => rfl, ?_⟩
      rintro _ ⟨⟩
      exact hfits

/-! ## What follows from it -/

/-- No slot touches the stored program. -/
theorem program_change_slot {keys : Keypad} (hchange : s.Change (.slot keys) ran s') :
    s'.machine.program = s.machine.program := by
  cases hchange with
  | cycle => exact program_activeSlot _
  | failed =>
      obtain ⟨running, sound, heq⟩ := (s.showKeys keys).stop_eq
      rw [heq]
      rfl
  | idle | ended => rfl

/-- Only a load touches the stored program. -/
theorem Stocked.program_undergo (h : s.Stocked) (hasks : incident.asksForLoad = false) :
    (s.undergo incident).machine.program = s.machine.program := by
  cases incident with
  | slot keys => exact program_change_slot (s.undergo_change (.slot keys))
  | poison => rfl
  | stop =>
      obtain ⟨running, sound, heq⟩ := s.stop_eq
      rw [undergo, heq]
  | control control =>
      rw [undergo]
      cases hp : s.poisoned with
      | true =>
          cases control with
          | pause | resume | togglePause => rfl
          | reset | restart | reload | loadFile => rw [control_of_poisoned hp rfl]
      | false =>
          cases control with
          | pause | resume | togglePause => rfl
          | reset =>
              rw [Scheduler.control, snd_reply, reset_of_sound hp]
              rfl
          | restart =>
              rw [Scheduler.control, snd_reply]
              exact (h.restart hp).2.1
          | reload | loadFile => cases hasks

/-- As long as no load succeeds, a scheduler that has nothing to run runs nothing. -/
theorem Starved.change (h : s.Starved) (hloads : s.loads incident = false)
    (hchange : s.Change incident ran s') : ran = none ∧ s'.Starved := by
  cases hchange with
  | cycle keys hrunning hp hactive =>
      rcases h with hpoisoned | ⟨hhalted, -⟩
      · exact absurd (hp.symm.trans hpoisoned) (by decide)
      · simp [isActive, hhalted] at hactive
  | failed keys =>
      obtain ⟨running, sound, heq⟩ := (s.showKeys keys).stop_eq
      rw [heq]
      exact ⟨rfl, h⟩
  | stop =>
      obtain ⟨running, sound, heq⟩ := s.stop_eq
      rw [heq]
      exact ⟨rfl, h⟩
  | idle | ended | flag => exact ⟨rfl, h⟩
  | poison => exact ⟨rfl, Or.inl rfl⟩
  | unopened | reset => exact ⟨rfl, h.imp_right fun hempty => ⟨rfl, hempty.2⟩⟩
  | emptied => exact ⟨rfl, Or.inr ⟨rfl, rfl⟩⟩
  | started control program hstarts _ hfound =>
      rcases h with hpoisoned | ⟨-, hnone⟩
      · exact absurd (hstarts.symm.trans (starts_of_poisoned hpoisoned _)) (by decide)
      · rcases hfound with hloaded | hstored
        · exact absurd (hloads.symm.trans hloaded) (by decide)
        · cases hnone.symm.trans hstored

theorem Stocked.programSafe (h : s.Stocked) : s.ProgramSafe where
  stored hhalted := by
    obtain ⟨program, hprogram⟩ := Option.isSome_iff_exists.1 (h.hasProgram hhalted)
    exact ⟨program, hprogram, h.fits program hprogram⟩
  restarts hp := by
    obtain ⟨hanswer, hprogram, hhalted⟩ := h.restart hp
    refine ⟨hanswer, hprogram, ?_⟩
    rw [hhalted, Bool.not_eq_true']
  kept _ hasks := h.program_undergo hasks
  quiet _ _ _ hfailed hloads := (hloads.quiet Starved.change (starved_of_failed_reload hfailed)).1

/-- From the start of a scheduler on, over a machine with any history, the stored program is safe
whatever happens. -/
theorem program_safe {config : Config} {random : RandomSource} {history : List Handling}
    {poisoned : Bool} {sound : σ} {speed : Float}
    (hspawn : spawn ((Machine.new config random).handleAll history) poisoned sound speed = .ok s)
    (incidents : List Incident) : (s.undergoAll incidents).ProgramSafe :=
  (undergoAll_induction Stocked.change (stocked_of_spawn hspawn) incidents).programSafe

/-- A program that is paused, then replaced by one that is too large, and asked for again. -/
theorem program_safe_too_large :
    let machine := (Machine.new {} (RandomSource.ofSeed 1)).handleAll
      [.load (.ofBytes [0x12, 0x00])]
    let s : Scheduler Mute := started machine {} 1.0
    let incidents : List Incident := [.slot Keypad.clear, .control .pause,
      .control (.reload (List.replicate 3585 0)), .control .restart, .control .resume,
      .slot Keypad.clear]
    spawn machine false {} 1.0 = .ok s ∧ (s.undergoAll incidents).ProgramSafe := by
  intro machine s incidents
  have hspawn : spawn machine false {} 1.0 = .ok s := spawn_started _ _ _
  have hsafe := program_safe hspawn incidents
  exact ⟨hspawn, hsafe⟩

end Scheduler

end Schip
