import Mathlib.Data.List.Induction
import Schip.Proofs.Machine.Loading
import Schip.Proofs.Scheduler.PauseTransparency

/-!
# A halted machine is blank

The scheduler halts in many ways: the program ends, the machine is reset, there is nothing to run
again, a load fails. Each of them leaves the machine blank, with one exception: a load of a file
that cannot be opened halts the scheduler before anything was reset, so a machine that was running
stands where it was interrupted until something resets it. `blank_of_halted` says that there is no
other exception; `halted_not_blank` is the exception at work.

`blank_control_of_resets` and `blank_activeSlot_of_halted` are the step lemmas; the proof of the
statement follows the operations from the last one backwards.
-/

set_option autoImplicit false

namespace Schip

namespace Machine

/-- Power-on state of registers, memory and screen. -/
structure Blank (m : Machine) : Prop where
  registers : m.registers = Registers.new
  memory : m.memory.Blank
  mode : m.screen.mode = .standard
  cells : m.screen.cells = FrameBuffer.blankCells .standard

/-- Machine as it is built, or after one load, whether that succeeded or not. -/
def Fresh (m : Machine) : Prop :=
  ∃ config random, m = new config random ∨ ∃ source, m = ((new config random).loadProgram source).2

variable {m : Machine}

theorem blank_new (config : Config) (random : RandomSource) : (new config random).Blank :=
  ⟨rfl, Memory.blank_new, rfl, rfl⟩

theorem blank_reset (m : Machine) : m.reset.Blank :=
  ⟨rfl, Memory.blank_reset m.memory, rfl, rfl⟩

theorem Blank.dropProgram (h : m.Blank) : m.dropProgram.Blank :=
  ⟨h.registers, h.memory, h.mode, h.cells⟩

theorem Blank.withKeypad (h : m.Blank) (keys : Keypad) : (m.withKeypad keys).Blank :=
  ⟨h.registers, h.memory, h.mode, h.cells⟩

/-- There is no afterglow on a blank screen that could age. -/
theorem Blank.faded (h : m.Blank) : (Scheduler.faded m).Blank where
  registers := h.registers
  memory := h.memory
  mode := h.mode
  cells := by
    show m.screen.cells.map Cell.age = FrameBuffer.blankCells .standard
    rw [h.cells, FrameBuffer.blankCells, Array.map_replicate]
    rfl

/-- A load that fails leaves the machine reset. -/
theorem blank_loadProgram_of_error {source : ByteSource} {error : MachineError}
    (h : (m.loadProgram source).1 = .error error) : (m.loadProgram source).2.Blank := by
  rcases m.loadProgram_cases source with ⟨_, heq⟩ | ⟨program, -, -, heq⟩
  · rw [heq]
    exact (blank_reset m).dropProgram
  · rw [heq] at h
    cases h

/-- A machine that is new or was loaded once is blank as long as it has no program. -/
theorem Fresh.blank (h : m.Fresh) (hprogram : m.hasProgram = false) : m.Blank := by
  obtain ⟨config, random, rfl | ⟨source, rfl⟩⟩ := h
  · exact blank_new config random
  · rcases (new config random).loadProgram_cases source with ⟨_, heq⟩ | ⟨program, -, -, heq⟩
    · rw [heq]
      exact (blank_reset _).dropProgram
    -- a load that succeeded stored its program
    · rw [heq, hasProgram, program_loaded] at hprogram
      cases hprogram

end Machine

/-- Whether a control operation resets the machine. -/
def Control.resets : Control → Bool
  | .reset | .restart | .reload _ => true
  | .loadFile file => file.openSource.isOk
  | .pause | .resume | .togglePause => false

/-- Whether an operation resets the machine whatever state it is in. -/
def Operation.resets : Operation → Bool
  | .tick _ => false
  | .control request => request.resets

namespace Scheduler

variable {σ : Type} {s : Scheduler σ}

/-! ## Control operations -/

/-- A load that halts the scheduler leaves the machine as loads that fail do. -/
theorem blank_afterLoad_of_halted {loaded : Except MachineError Nat × Machine}
    (hblank : ∀ error, loaded.1 = .error error → loaded.2.Blank)
    (h : (s.afterLoad loaded).2.halted = true) : (s.afterLoad loaded).2.machine.Blank := by
  rw [afterLoad_eq] at h ⊢
  cases hanswer : loaded.1 with
  | error error => exact hblank error hanswer
  | ok size =>
      rw [hanswer] at h
      cases h

/-- A restart that halts the scheduler leaves the machine blank. -/
theorem blank_restart_of_halted (hp : s.poisoned = false) (h : s.restart.2.halted = true) :
    s.restart.2.machine.Blank := by
  rw [restart_of_sound hp] at h ⊢
  cases hprogram : s.machine.program with
  | none =>
      rw [Machine.restart_of_none hprogram]
      exact Machine.blank_reset s.machine
  | some program =>
      rw [Machine.restart_of_some hprogram] at h ⊢
      cases hanswer : (s.machine.dropProgram.loadProgram (.ofBytes program)).1 with
      | error error => exact Machine.blank_loadProgram_of_error hanswer
      | ok size =>
          rw [hanswer] at h
          cases h

/-- A file that can be opened and halts the scheduler leaves the machine blank. -/
theorem blank_loadFile_of_halted (hp : s.poisoned = false) {file : ProgramFile}
    (hopens : file.openSource.isOk = true) (h : (s.loadFile file).2.halted = true) :
    (s.loadFile file).2.machine.Blank := by
  rw [loadFile_of_sound hp] at h ⊢
  refine blank_afterLoad_of_halted (fun error herror => ?_) h
  rw [Machine.loadFile] at herror ⊢
  cases hopen : file.openSource with
  | error reason =>
      rw [hopen] at hopens
      cases hopens
  | ok source =>
      rw [hopen] at herror
      exact Machine.blank_loadProgram_of_error herror

/-- A control operation that resets the machine leaves it blank, unless it starts a program. -/
theorem blank_control_of_resets (hp : s.poisoned = false) {control : Control}
    (hresets : control.resets = true) (h : (s.control control).2.halted = true) :
    (s.control control).2.machine.Blank := by
  cases control with
  | pause | resume | togglePause => cases hresets
  | reset =>
      simp only [Scheduler.control, snd_reply, reset_of_sound hp]
      exact Machine.blank_reset s.machine
  | restart =>
      simp only [Scheduler.control, snd_reply] at h ⊢
      exact blank_restart_of_halted hp h
  | reload program =>
      simp only [Scheduler.control, snd_reply, reload_of_sound hp] at h ⊢
      exact blank_afterLoad_of_halted (fun _ => Machine.blank_loadProgram_of_error) h
  | loadFile file =>
      simp only [Scheduler.control, snd_reply] at h ⊢
      exact blank_loadFile_of_halted hp hresets h

/-- A file that cannot be opened halts the scheduler, and nothing else happens. -/
theorem loadFile_of_unopenable (hp : s.poisoned = false) {file : ProgramFile} {reason : String}
    (hopen : file.openSource = .error reason) :
    (s.control (.loadFile file)).2 = { s with halted := true } := by
  simp only [Scheduler.control, snd_reply, loadFile_of_sound hp, Machine.loadFile, hopen]
  rfl

/-! ## Slots -/

variable [Sound σ]

/-- A slot with a cycle halts the scheduler only at the end of the program, which resets the
machine. -/
theorem blank_activeSlot_of_halted (hactive : s.isActive = true)
    (h : s.activeSlot.2.halted = true) : s.activeSlot.2.machine.Blank := by
  rw [activeSlot_eq] at h ⊢
  have hnot : s.halted = false := by
    simp only [isActive, Bool.and_eq_true, Bool.not_eq_true'] at hactive
    exact hactive.2
  have hexit : s.machine.cycle.1.outcome = .exit := by
    simpa only [hnot, Bool.false_or, decide_eq_true_eq] using h
  rw [hexit]
  exact Machine.blank_reset _

/-- A slot that finds the scheduler halted leaves it so, and a blank machine stays blank. -/
theorem blank_tick_of_halted (hhalted : s.halted = true) (hblank : s.machine.Blank) :
    s.tick.2.machine.Blank := by
  rcases s.tick_cases with ⟨-, heq⟩ | ⟨hactive, -⟩ | ⟨-, heq⟩
  · rw [heq]
    exact hblank
  · simp [isActive, hhalted] at hactive
  · rw [heq]
    exact hblank.faded

/-- A slot that halts the scheduler leaves the machine blank. -/
theorem blank_tick_of_running (hp : s.poisoned = false) (hrunning : s.halted = false)
    (h : s.tick.2.halted = true) : s.tick.2.machine.Blank := by
  rcases s.tick_cases with ⟨hpoisoned, -⟩ | ⟨hactive, heq⟩ | ⟨-, heq⟩
  · rw [hp] at hpoisoned
    cases hpoisoned
  · rw [heq] at h ⊢
    exact blank_activeSlot_of_halted hactive h
  -- a pause does not halt
  · rw [heq] at h
    exact absurd (hrunning.symm.trans h) (by decide)

/-! ## Sequences of operations -/

/-- A load of a file that could not be opened halted the scheduler in the middle of a run, and
nothing has reset the machine since. It stands where it was interrupted. -/
def Stranded (s : Scheduler σ) (operations : List Operation) : Prop :=
  ∃ before file reason after,
    operations = before ++ .control (.loadFile file) :: after ∧
      file.openSource = .error reason ∧ (s.operateAll before).halted = false ∧
      (∀ operation ∈ after, operation.resets = false) ∧
      (s.operateAll before).machine.SameCore (s.operateAll operations).machine

/-- What an operation that resets nothing does to a halted scheduler. -/
theorem sameCore_operate_of_halted (hp : s.poisoned = false) (hhalted : s.halted = true)
    {operation : Operation} (h : operation.resets = false) :
    s.machine.SameCore (s.operate operation).machine := by
  cases operation with
  | tick keys =>
      have hidle : s.isActive = false := by simp [isActive, hhalted]
      exact (sameRun_tick_of_idle s hidle keys).machine
  | control control =>
      cases control with
      | pause | resume | togglePause => exact Machine.SameCore.refl _
      | reset | restart | reload => cases h
      | loadFile file =>
          cases hopen : file.openSource with
          | error reason =>
              rw [operate, loadFile_of_unopenable hp hopen]
              exact Machine.SameCore.refl _
          | ok source =>
              simp only [Operation.resets, Control.resets, hopen] at h
              cases h

/-- As long as nothing resets the machine, it stays as the file that could not be opened left it. -/
theorem Stranded.snoc {operations : List Operation} (h : s.Stranded operations)
    (hp : s.poisoned = false) (hhalted : (s.operateAll operations).halted = true)
    {operation : Operation} (hresets : operation.resets = false) :
    s.Stranded (operations ++ [operation]) := by
  obtain ⟨before, file, reason, after, hsplit, hopen, hrunning, hafter, hcore⟩ := h
  refine ⟨before, file, reason, after ++ [operation], ?_, hopen, hrunning, ?_, ?_⟩
  · rw [hsplit, List.append_assoc, List.cons_append]
  · intro other hother
    rcases List.mem_append.1 hother with hother | hother
    · exact hafter other hother
    · rw [List.mem_singleton.1 hother]
      exact hresets
  · rw [operateAll_snoc]
    exact hcore.trans (sameCore_operate_of_halted ((s.poisoned_operateAll operations).trans hp)
      hhalted hresets)

/-- The operation that halts a scheduler which was not halted. -/
theorem blank_or_unopenable_of_halts (hp : s.poisoned = false) (hrunning : s.halted = false)
    {operation : Operation} (h : (s.operate operation).halted = true) :
    (s.operate operation).machine.Blank ∨ ∃ file reason,
      operation = .control (.loadFile file) ∧ file.openSource = .error reason := by
  cases operation with
  | tick keys => exact Or.inl (blank_tick_of_running hp hrunning h)
  | control control =>
      cases control with
      | pause | resume | togglePause => exact absurd (hrunning.symm.trans h) (by decide)
      | reset | restart | reload => exact Or.inl (blank_control_of_resets hp rfl h)
      | loadFile file =>
          cases hopen : file.openSource with
          | error reason => exact Or.inr ⟨file, reason, rfl, hopen⟩
          | ok source =>
              have hresets : Control.resets (.loadFile file) = true := by
                rw [Control.resets, hopen]
                rfl
              exact Or.inl (blank_control_of_resets hp hresets h)

/-- An operation on a halted scheduler that stays halted. -/
theorem blank_operate_of_halted (hp : s.poisoned = false) (hhalted : s.halted = true)
    (hblank : s.machine.Blank) {operation : Operation} (h : (s.operate operation).halted = true) :
    (s.operate operation).machine.Blank := by
  cases operation with
  | tick keys => exact blank_tick_of_halted hhalted (hblank.withKeypad keys)
  | control control =>
      cases hresets : control.resets with
      | true => exact blank_control_of_resets hp hresets h
      | false =>
          cases control with
          | pause | resume | togglePause => exact hblank
          | reset | restart | reload => cases hresets
          | loadFile file =>
              cases hopen : file.openSource with
              | error reason =>
                  rw [operate, loadFile_of_unopenable hp hopen]
                  exact hblank
              | ok source =>
                  rw [Control.resets, hopen] at hresets
                  cases hresets

/-- From the start of a machine on, whenever the scheduler is halted the machine is blank, unless a
load of a file that could not be opened stranded it. -/
theorem blank_of_halted {machine : Machine} {poisoned : Bool} {sound : σ} {speed : Float}
    (hfresh : machine.Fresh) (hspawn : spawn machine poisoned sound speed = .ok s)
    (operations : List Operation) (hhalted : (s.operateAll operations).state = .halted) :
    (s.operateAll operations).machine.Blank ∨ s.Stranded operations := by
  have hs := eq_started_of_spawn hspawn
  have hp : s.poisoned = false := by
    rw [hs]
    rfl
  have hhalted' := state_eq_halted_iff.1 hhalted
  clear hhalted
  induction operations using List.reverseRecOn with
  | nil =>
      rw [hs] at hhalted' ⊢
      have hprogram : machine.hasProgram = false := Bool.not_eq_eq_eq_not.1 hhalted'
      exact Or.inl (hfresh.blank hprogram)
  | append_singleton before operation ih =>
      have hp' : (s.operateAll before).poisoned = false := (s.poisoned_operateAll before).trans hp
      rw [operateAll_snoc] at hhalted' ⊢
      cases hbefore : (s.operateAll before).halted with
      -- the operation is the one that halts
      | false =>
          rcases blank_or_unopenable_of_halts hp' hbefore hhalted' with
            hblank | ⟨file, reason, rfl, hopen⟩
          · exact Or.inl hblank
          · refine Or.inr ⟨before, file, reason, [], rfl, hopen, hbefore, by simp, ?_⟩
            rw [operateAll_snoc, operate, loadFile_of_unopenable hp' hopen]
            exact Machine.SameCore.refl _
      -- the scheduler was halted before
      | true =>
          rcases ih hbefore with hblank | hstranded
          · exact Or.inl (blank_operate_of_halted hp' hbefore hblank hhalted')
          · cases hresets : operation.resets with
            | false => exact Or.inr (hstranded.snoc hp hbefore hresets)
            | true =>
                cases operation with
                | tick keys => cases hresets
                | control control => exact Or.inl (blank_control_of_resets hp' hresets hhalted')

/-- A directory, which can be opened but not read, loaded into a paused run. -/
theorem blank_of_halted_directory :
    let machine := ((Machine.new {} (RandomSource.ofSeed 1)).loadProgram
      (.ofBytes [0x60, 0x2A, 0x12, 0x00])).2
    let s : Scheduler Mute := started machine {} 1.0
    let run : List Operation := [.tick Keypad.clear, .tick Keypad.clear, .control .pause]
    let operations := run ++ [.control (.loadFile .directory)]
    machine.Fresh ∧ spawn machine false {} 1.0 = .ok s ∧
      (s.operateAll operations).state = .halted ∧
      ((s.operateAll operations).machine.Blank ∨ s.Stranded operations) := by
  intro machine s run operations
  have hfresh : machine.Fresh := ⟨{}, RandomSource.ofSeed 1, Or.inr ⟨_, rfl⟩⟩
  have hspawn : spawn machine false {} 1.0 = .ok s := spawn_started _ _ _
  have hload : ∀ t : Scheduler Mute, t.poisoned = false →
      (t.operate (.control (.loadFile .directory))).state = .halted := by
    intro t hp
    rw [operate, Scheduler.control, snd_reply, loadFile_of_sound hp, afterLoad_eq]
    rfl
  have hhalted : (s.operateAll operations).state = .halted := by
    rw [operateAll_snoc]
    exact hload (s.operateAll run) (s.poisoned_operateAll run)
  exact ⟨hfresh, hspawn, hhalted, blank_of_halted hfresh hspawn operations hhalted⟩

/-- A load of a missing file halts the scheduler, and the machine is not blank: the program is still
in its memory. -/
theorem halted_not_blank :
    let machine := ((Machine.new {} (RandomSource.ofSeed 1)).loadProgram
      (.ofBytes [0x12, 0x00])).2
    let s : Scheduler Mute := started machine {} 1.0
    let operations : List Operation := [.control (.loadFile .missing)]
    machine.Fresh ∧ spawn machine false {} 1.0 = .ok s ∧
      (s.operateAll operations).state = .halted ∧
      ¬(s.operateAll operations).machine.Blank := by
  intro machine s operations
  have hstep : s.operateAll operations = { s with halted := true } :=
    loadFile_of_unopenable rfl rfl
  have hmachine : machine = (Machine.new {} (RandomSource.ofSeed 1)).loaded [0x12, 0x00] :=
    Machine.snd_loadProgram_ofBytes _ (by decide)
  refine ⟨⟨{}, RandomSource.ofSeed 1, Or.inr ⟨_, rfl⟩⟩, spawn_started _ _ _,
    by rw [hstep]; rfl, ?_⟩
  intro hblank
  rw [hstep] at hblank
  -- the first byte of the program region is the first byte of the program
  have hzero : machine.memory.bytes[0x200] = 0 :=
    hblank.memory.program 0x200 (by decide) (by decide)
  have hread : machine.memory.bytes[0x200] = 0x12 := by
    rw [hmachine]
    simp only [Machine.memory_loaded, Memory.getElem_overlay, Memory.programBase]
    rfl
  rw [hread] at hzero
  cases hzero

end Scheduler

end Schip
