import Schip.Proofs.Machine.Drawing
import Schip.Proofs.Machine.Loading
import Schip.Proofs.Scheduler.Operation

/-!
# The options of the afterglow are fixed

Whether flicker is reduced and for how long a pixel glows is chosen before a program runs. No
instruction, reset, load, slot or control operation changes it: `sameOptions_cycle` says so of a
cycle and `sameOptions_operateAll` of any sequence of operations on a scheduler.
-/

set_option autoImplicit false

namespace Schip

namespace Machine

open FrameBuffer (SameOptions)

theorem sameOptions_cycle (m : Machine) : m.cycle.2.screen.SameOptions m.screen :=
  (cycle_drawnFrom m).sameOptions

theorem sameOptions_loadProgram (m : Machine) (source : ByteSource) :
    (m.loadProgram source).2.screen.SameOptions m.screen := by
  rw [loadProgram]
  cases source.readAll with
  | error reason => exact ⟨rfl, rfl⟩
  | ok program =>
      dsimp only
      rcases m.reset.dropProgram.memory.loadProgram (.ofBytes program) with ⟨_ | _, _⟩
      · exact ⟨rfl, rfl⟩
      · exact ⟨rfl, rfl⟩

theorem sameOptions_loadFile (m : Machine) (file : ProgramFile) :
    (m.loadFile file).2.screen.SameOptions m.screen := by
  rw [loadFile]
  cases file.openSource with
  | error reason => exact SameOptions.refl _
  | ok source => exact sameOptions_loadProgram m source

theorem sameOptions_restart (m : Machine) : m.restart.2.screen.SameOptions m.screen := by
  cases hprogram : m.program with
  | none =>
      rw [restart_of_none hprogram]
      exact ⟨rfl, rfl⟩
  | some program =>
      rw [restart_of_some hprogram]
      exact sameOptions_loadProgram m.dropProgram (.ofBytes program)

end Machine

namespace Scheduler

open FrameBuffer (SameOptions)

variable {σ : Type}

theorem sameOptions_control_of_sound {s : Scheduler σ} (hp : s.poisoned = false)
    {control : Control} (hlocks : control.locks = true) :
    (s.control control).2.machine.screen.SameOptions s.machine.screen := by
  cases control with
  | pause | resume | togglePause => cases hlocks
  | reset =>
      simp only [Scheduler.control, snd_reply, reset_of_sound hp]
      exact ⟨rfl, rfl⟩
  | restart =>
      simp only [Scheduler.control, snd_reply, restart_of_sound hp]
      exact Machine.sameOptions_restart s.machine
  | reload program =>
      simp only [Scheduler.control, snd_reply, reload_of_sound hp, afterLoad_eq]
      exact Machine.sameOptions_loadProgram s.machine _
  | loadFile file =>
      simp only [Scheduler.control, snd_reply, loadFile_of_sound hp, afterLoad_eq]
      exact Machine.sameOptions_loadFile s.machine file

/-- No control operation touches the options of the afterglow. -/
theorem sameOptions_control (s : Scheduler σ) (control : Control) :
    (s.control control).2.machine.screen.SameOptions s.machine.screen := by
  cases control with
  | pause | resume | togglePause => exact SameOptions.refl _
  | reset | restart | reload | loadFile =>
      cases hp : s.poisoned with
      | false => exact sameOptions_control_of_sound hp rfl
      | true =>
          -- nothing that takes the lock changes a poisoned scheduler
          rw [control_of_poisoned hp rfl]
          exact SameOptions.refl _

variable [Sound σ]

/-- The reset at the end of a program leaves the options of the afterglow alone. -/
theorem sameOptions_settle (outcome : Outcome) (m : Machine) :
    (settle outcome m).screen.SameOptions m.screen := by
  rw [settle]
  split
  · exact ⟨rfl, rfl⟩
  · exact SameOptions.refl _

/-- No slot touches the options of the afterglow. -/
theorem sameOptions_tick (s : Scheduler σ) :
    s.tick.2.machine.screen.SameOptions s.machine.screen := by
  rcases s.tick_cases with ⟨-, heq⟩ | ⟨-, heq⟩ | ⟨-, heq⟩
  · rw [heq]
    exact SameOptions.refl _
  -- the afterglow fades, a cycle runs, and an exit resets the machine
  · rw [heq, activeSlot_eq]
    have haged : s.aged.machine.screen.SameOptions s.machine.screen := ⟨rfl, rfl⟩
    exact (sameOptions_settle _ _).trans
      ((Machine.sameOptions_cycle s.aged.machine).trans haged)
  · rw [heq]
    exact ⟨rfl, rfl⟩

theorem sameOptions_operate (s : Scheduler σ) (operation : Operation) :
    (s.operate operation).machine.screen.SameOptions s.machine.screen := by
  cases operation with
  | tick keys => exact sameOptions_tick (s.showKeys keys)
  | control control => exact sameOptions_control s control

/-- Any sequence of slots and control operations leaves both options as they are. -/
theorem sameOptions_operateAll (operations : List Operation) (s : Scheduler σ) :
    (s.operateAll operations).machine.screen.SameOptions s.machine.screen := by
  induction operations generalizing s with
  | nil => exact SameOptions.refl _
  | cons operation rest ih => exact (ih (s.operate operation)).trans (sameOptions_operate s operation)

end Scheduler

end Schip
