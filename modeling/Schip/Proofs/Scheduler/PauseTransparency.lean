import Schip.Proofs.Scheduler.AfterglowOptions
import Schip.Proofs.Scheduler.Operation

/-!
# Pauses are transparent

A paused slot lets the afterglow fade and silences the tone; it changes nothing that the program can
see. So pauses may be inserted into any sequence of slots and control operations, at any points
where the scheduler is neither paused nor halted, and the run ends the same but for the display and
the tone (`pause_transparent`).

`Interrupted` is the insertion of pauses. `Scheduler.SameRun` is the relation between the two runs:
the machines agree apart from the keys and from what concerns the display alone, the flags are the
same and so are the events. It is kept by every operation made on both sides (`SameRun.operate`) and
by a pause made on one side (`sameRun_pauseBlock`). The random bytes are part of the machine; that
they are the same in both runs is part of what is shown.
-/

set_option autoImplicit false

namespace Schip

namespace Machine

variable {m m' m'' : Machine}

theorem SameCore.refl (m : Machine) : m.SameCore m := (Agree.refl m).toSameCore

theorem SameCore.symm (h : m.SameCore m') : m'.SameCore m :=
  ⟨h.registers.symm, h.memory.symm, h.screen.symm, h.program.symm, h.incrementIndex.symm,
    h.random.symm, h.faults.symm⟩

theorem SameCore.trans (h : m.SameCore m') (h' : m'.SameCore m'') : m.SameCore m'' :=
  ⟨h.registers.trans h'.registers, h.memory.trans h'.memory, h.screen.trans h'.screen,
    h.program.trans h'.program, h.incrementIndex.trans h'.incrementIndex,
    h.random.trans h'.random, h.faults.trans h'.faults⟩

theorem SameCore.paceScale (h : m.SameCore m') : m.paceScale = m'.paceScale := by
  rw [Machine.paceScale, Machine.paceScale, h.screen.mode]

/-- The same keys shown on both sides. -/
theorem SameCore.withKeypad (h : m.SameCore m') (keys : Keypad) :
    (m.withKeypad keys).Agree (m'.withKeypad keys) :=
  ⟨⟨h.registers, h.memory, h.screen, h.program, h.incrementIndex, h.random, h.faults⟩, rfl⟩

theorem sameCore_withKeypad (m : Machine) (keys : Keypad) : m.SameCore (m.withKeypad keys) :=
  ⟨rfl, rfl, FrameBuffer.SameLogical.refl _, rfl, rfl, rfl, rfl⟩

theorem SameCore.settle (h : m.SameCore m') (outcome : Outcome) :
    (Scheduler.settle outcome m).SameCore (Scheduler.settle outcome m') := by
  rw [Scheduler.settle, Scheduler.settle]
  split
  · exact h.reset
  · exact h

/-- Ageing the screen touches no more than what is rendered. -/
theorem sameCore_faded (m : Machine) : m.SameCore (Scheduler.faded m) :=
  (agree_withScreen m (FrameBuffer.sameLogical_updateDecay m.screen)).toSameCore

end Machine

/-- A pause of some slots, in which the keypad shows the given keys. -/
def pauseBlock (slots : List Keypad) : List Operation :=
  .control .pause :: (slots.map .tick ++ [.control .resume])

namespace Scheduler

variable {σ : Type}

/-- Same machine apart from the keys and from what concerns the display alone, same flags, same
pace and same events. -/
structure SameRun (s s' : Scheduler σ) : Prop where
  machine : s.machine.SameCore s'.machine
  poisoned : s.poisoned = s'.poisoned
  running : s.running = s'.running
  pacer : s.pacer = s'.pacer
  paused : s.paused = s'.paused
  halted : s.halted = s'.halted
  events : s.events = s'.events

variable {s s' s'' : Scheduler σ}

theorem SameRun.refl (s : Scheduler σ) : s.SameRun s :=
  ⟨Machine.SameCore.refl _, rfl, rfl, rfl, rfl, rfl, rfl⟩

theorem SameRun.symm (h : s.SameRun s') : s'.SameRun s :=
  ⟨h.machine.symm, h.poisoned.symm, h.running.symm, h.pacer.symm, h.paused.symm, h.halted.symm,
    h.events.symm⟩

theorem SameRun.trans (h : s.SameRun s') (h' : s'.SameRun s'') : s.SameRun s'' :=
  ⟨h.machine.trans h'.machine, h.poisoned.trans h'.poisoned, h.running.trans h'.running,
    h.pacer.trans h'.pacer, h.paused.trans h'.paused, h.halted.trans h'.halted,
    h.events.trans h'.events⟩

/-- Another machine on both sides, and both halted or both not. -/
theorem SameRun.withMachine (h : s.SameRun s') {m m' : Machine} (hm : m.SameCore m')
    (halted : Bool) :
    SameRun { s with machine := m, halted := halted } { s' with machine := m', halted := halted } :=
  ⟨hm, h.poisoned, h.running, h.pacer, h.paused, rfl, h.events⟩

/-- Of two schedulers in the same run both run cycles or neither does. -/
theorem SameRun.isActive (h : s.SameRun s') : s.isActive = s'.isActive := by
  rw [Scheduler.isActive, Scheduler.isActive, h.paused, h.halted]

/-! ## Operations on both sides -/

/-- Loads with the same answer keep two schedulers in the same run. -/
theorem SameRun.afterLoad (h : s.SameRun s')
    {loaded loaded' : Except MachineError Nat × Machine} (hanswer : loaded.1 = loaded'.1)
    (hstate : loaded.2.SameCore loaded'.2) :
    (s.afterLoad loaded).2.SameRun (s'.afterLoad loaded').2 := by
  rw [afterLoad_eq, afterLoad_eq, hanswer]
  exact h.withMachine hstate _

/-- A control operation that holds the machine. -/
theorem SameRun.control_of_sound (h : s.SameRun s') (hp : s.poisoned = false) {control : Control}
    (hlocks : control.locks = true) : (s.control control).2.SameRun (s'.control control).2 := by
  have hp' : s'.poisoned = false := h.poisoned.symm.trans hp
  cases control with
  | pause | resume | togglePause => cases hlocks
  | reset =>
      simp only [Scheduler.control, snd_reply, reset_of_sound hp, reset_of_sound hp']
      exact h.withMachine h.machine.reset true
  | restart =>
      obtain ⟨hanswer, hstate⟩ := h.machine.restart
      simp only [Scheduler.control, snd_reply, restart_of_sound hp, restart_of_sound hp', hanswer]
      exact h.withMachine hstate _
  | reload program =>
      obtain ⟨hanswer, hstate⟩ := h.machine.loadProgram (.ofBytes program)
      simp only [Scheduler.control, snd_reply, reload_of_sound hp, reload_of_sound hp']
      exact h.afterLoad hanswer hstate
  | loadFile file =>
      obtain ⟨hanswer, hstate⟩ := h.machine.loadFile file
      simp only [Scheduler.control, snd_reply, loadFile_of_sound hp, loadFile_of_sound hp']
      exact h.afterLoad hanswer hstate

/-- The same control operation keeps two schedulers in the same run. -/
theorem SameRun.control (h : s.SameRun s') (control : Control) :
    (s.control control).2.SameRun (s'.control control).2 := by
  cases control with
  | pause => exact ⟨h.machine, h.poisoned, h.running, h.pacer, rfl, h.halted, h.events⟩
  | resume => exact ⟨h.machine, h.poisoned, h.running, h.pacer, rfl, h.halted, h.events⟩
  | togglePause =>
      exact ⟨h.machine, h.poisoned, h.running, h.pacer, congrArg not h.paused, h.halted, h.events⟩
  | reset | restart | reload | loadFile =>
      cases hp : s.poisoned with
      | false => exact h.control_of_sound hp rfl
      | true =>
          rw [control_of_poisoned hp rfl, control_of_poisoned (h.poisoned.symm.trans hp) rfl]
          exact h

theorem sameRun_showKeys (s : Scheduler σ) (keys : Keypad) : s.SameRun (s.showKeys keys) :=
  ⟨Machine.sameCore_withKeypad s.machine keys, rfl, rfl, rfl, rfl, rfl, rfl⟩

theorem sameRun_aged (s : Scheduler σ) : s.SameRun s.aged :=
  ⟨Machine.sameCore_faded s.machine, rfl, rfl, rfl, rfl, rfl, rfl⟩

variable [Sound σ]

/-- A slot with a cycle on both sides; the devices may answer differently. -/
theorem SameRun.activeSlot (h : s.SameRun s') (hagree : s.machine.Agree s'.machine) :
    s.activeSlot.2.SameRun s'.activeSlot.2 := by
  obtain ⟨hstep, hnext⟩ := hagree.cycle
  have hsettled := hnext.toSameCore.settle s'.machine.cycle.1.outcome
  rw [activeSlot_eq, activeSlot_eq, hstep]
  refine ⟨hsettled, h.poisoned, h.running, ?_, h.paused, ?_, ?_⟩
  · show s.pacer.setPaceScale _ = s'.pacer.setPaceScale _
    rw [h.pacer, hsettled.paceScale]
  · show (s.halted || _) = (s'.halted || _)
    rw [h.halted]
  · show s.events ++ _ = s'.events ++ _
    rw [h.events]

theorem sameRun_idleSlot (s : Scheduler σ) : s.SameRun s.idleSlot.2 :=
  ⟨Machine.SameCore.refl s.machine, rfl, rfl, rfl, rfl, rfl, rfl⟩

/-- A slot that runs no cycle changes nothing that the run is about. -/
theorem sameRun_tick_of_idle (s : Scheduler σ) (hidle : s.isActive = false) (keys : Keypad) :
    s.SameRun (s.operate (.tick keys)) := by
  refine (sameRun_showKeys s keys).trans ?_
  have hidle' : (s.showKeys keys).isActive = false := hidle
  show (s.showKeys keys).SameRun (s.showKeys keys).tick.2
  generalize s.showKeys keys = shown at hidle'
  rcases shown.tick_cases with ⟨-, heq⟩ | ⟨hactive, -⟩ | ⟨-, heq⟩
  · rw [heq]
    exact SameRun.refl shown
  · rw [hidle'] at hactive
    cases hactive
  -- the afterglow fades and the tone falls silent
  · rw [heq]
    exact (sameRun_aged shown).trans (sameRun_idleSlot shown.aged)

/-- Slots with a cycle on agreeing machines keep two schedulers in the same run. -/
theorem SameRun.tick_of_active (h : s.SameRun s') (hagree : s.machine.Agree s'.machine)
    (hactive : s.isActive = true) : s.tick.2.SameRun s'.tick.2 := by
  cases hp : s.poisoned with
  | true =>
      rw [tick_of_poisoned hp, tick_of_poisoned (h.poisoned.symm.trans hp)]
      exact h
  | false =>
      have hactive' := h.isActive.symm.trans hactive
      rw [Scheduler.tick_of_active hp hactive,
        Scheduler.tick_of_active (h.poisoned.symm.trans hp) hactive']
      have haged : s.aged.SameRun s'.aged :=
        (sameRun_aged s).symm.trans (h.trans (sameRun_aged s'))
      exact haged.activeSlot ⟨haged.machine, hagree.keypad⟩

/-- One operation on both sides. -/
theorem SameRun.operate (h : s.SameRun s') (operation : Operation) :
    (s.operate operation).SameRun (s'.operate operation) := by
  cases operation with
  | tick keys =>
      cases hactive : s.isActive with
      -- both sides run a cycle, with the same keys shown
      | true =>
          have hshown : (s.showKeys keys).SameRun (s'.showKeys keys) :=
            (sameRun_showKeys s keys).symm.trans (h.trans (sameRun_showKeys s' keys))
          exact hshown.tick_of_active (h.machine.withKeypad keys) hactive
      -- neither side runs a cycle
      | false =>
          have hidle' := h.isActive.symm.trans hactive
          exact (sameRun_tick_of_idle s hactive keys).symm.trans
            (h.trans (sameRun_tick_of_idle s' hidle' keys))
  | control control => exact h.control control

/-! ## Pauses on one side -/

/-- However many slots a pause lasts, the run is the one that it interrupted. -/
theorem sameRun_pausedTicks (s : Scheduler σ) (hidle : s.isActive = false)
    (slots : List Keypad) : s.SameRun (s.operateAll (slots.map .tick)) := by
  induction slots generalizing s with
  | nil => exact SameRun.refl s
  | cons keys slots ih =>
      -- the slot does not resume the scheduler, so the rest of the pause is idle as well
      have hslot := sameRun_tick_of_idle s hidle keys
      exact hslot.trans (ih _ (hslot.isActive.symm.trans hidle))

/-- A pause that begins where the scheduler is neither paused nor halted changes nothing that the
run is about, however many slots it lasts and whatever keys are shown in them. -/
theorem sameRun_pauseBlock (s : Scheduler σ) (hactive : s.isActive = true)
    (slots : List Keypad) : s.SameRun (s.operateAll (pauseBlock slots)) := by
  have hpaused : s.paused = false := by
    simp only [isActive, Bool.and_eq_true, Bool.not_eq_true'] at hactive
    exact hactive.1
  -- the block relates the paused scheduler to the one at its end, both resumed
  have hblock := (sameRun_pausedTicks s.pause rfl slots).control .resume
  rw [pauseBlock, operateAll_cons, operateAll_append]
  refine SameRun.trans ?_ hblock
  exact ⟨Machine.SameCore.refl _, rfl, rfl, rfl, hpaused, rfl, rfl⟩

end Scheduler

/-- Pauses inserted into a sequence of operations on a scheduler, at points where it is neither
paused nor halted. In a slot that runs no cycle the keypad may show other keys. -/
inductive Interrupted {σ : Type} [Sound σ] :
    Scheduler σ → List Operation → List Operation → Prop
  | nil (s : Scheduler σ) : Interrupted s [] []
  | same {s : Scheduler σ} {operations interrupted : List Operation} (operation : Operation) :
      Interrupted (s.operate operation) operations interrupted →
      Interrupted s (operation :: operations) (operation :: interrupted)
  | idle {s : Scheduler σ} {operations interrupted : List Operation} (keys keys' : Keypad) :
      s.isActive = false →
      Interrupted (s.operate (.tick keys)) operations interrupted →
      Interrupted s (.tick keys :: operations) (.tick keys' :: interrupted)
  | pause {s : Scheduler σ} {operations interrupted : List Operation} (slots : List Keypad) :
      s.isActive = true →
      Interrupted s operations interrupted →
      Interrupted s operations (pauseBlock slots ++ interrupted)

namespace Scheduler

variable {σ : Type} [Sound σ]

/-- The run with pauses, from a scheduler that differs in what the run is not about. -/
theorem SameRun.operateAll {s : Scheduler σ} {operations interrupted : List Operation}
    (h : Interrupted s operations interrupted) :
    ∀ {s' : Scheduler σ}, s.SameRun s' →
      (s.operateAll operations).SameRun (s'.operateAll interrupted) := by
  induction h with
  | nil s =>
      intro s' hsame
      exact hsame
  | same operation _ ih =>
      intro s' hsame
      exact ih (hsame.operate operation)
  | @idle s operations interrupted keys keys' hidle _ ih =>
      intro s' hsame
      have hidle' := hsame.isActive.symm.trans hidle
      exact ih ((sameRun_tick_of_idle s hidle keys).symm.trans
        (hsame.trans (sameRun_tick_of_idle s' hidle' keys')))
  | @pause s operations interrupted slots hactive _ ih =>
      intro s' hsame
      rw [operateAll_append]
      -- the scheduler on the other side is active here as well
      have hactive' := hsame.isActive.symm.trans hactive
      exact ih (hsame.trans (sameRun_pauseBlock s' hactive' slots))

/-- Pauses are transparent to the program: with any number of pauses of any length inserted, the
run ends with the same registers, memory, logical pixels in the same mode, stored program, random
bytes still to come, flags, pace and events, and with the same options. -/
theorem pause_transparent {s : Scheduler σ} {operations interrupted : List Operation}
    (h : Interrupted s operations interrupted) :
    (s.operateAll operations).SameRun (s.operateAll interrupted) ∧
      (s.operateAll operations).machine.screen.SameOptions
        (s.operateAll interrupted).machine.screen := by
  constructor
  · exact SameRun.operateAll h (SameRun.refl s)
  · exact (sameOptions_operateAll operations s).trans (sameOptions_operateAll interrupted s).symm

/-- A program that fits starts at once when it is loaded outside of a pause. -/
theorem isActive_reload {s : Scheduler σ} {program : List UInt8} (hpoisoned : s.poisoned = false)
    (hpaused : s.paused = false) (hsize : program.length ≤ Memory.programLimit) :
    (s.operate (.control (.reload program))).isActive = true := by
  simp only [Scheduler.operate, Scheduler.control, snd_reply, reload_of_sound hpoisoned,
    afterLoad_eq, Machine.loadProgram_ofBytes _ hsize, Scheduler.isActive, hpaused]
  rfl

/-- A program that draws a glyph twice over itself, interrupted before its first slot and again
after it was loaded a second time. -/
theorem pause_transparent_twice :
    let program : List UInt8 := [0xA0, 0x00, 0xD0, 0x15, 0xD0, 0x15, 0x12, 0x02]
    let machine := ((Machine.new {} (RandomSource.ofSeed 1)).loadProgram (.ofBytes program)).2
    let s : Scheduler Mute := {
      machine := machine
      poisoned := false
      running := true
      paused := false
      halted := false
      pacer := Pacer.new machine.paceScale 1.0
      sound := {}
      events := [] }
    let keys := Keypad.clear
    let slot : Operation := .tick keys
    let reload : Operation := .control (.reload program)
    let operations := [slot, slot, slot, reload, slot, slot]
    let interrupted :=
      pauseBlock [keys.press 5] ++
        slot :: slot :: slot :: reload :: (pauseBlock [keys, keys.press 3] ++ [slot, slot])
    Scheduler.spawn machine false {} 1.0 = .ok s ∧ Interrupted s operations interrupted ∧
      (s.operateAll operations).SameRun (s.operateAll interrupted) ∧
      (s.operateAll operations).machine.screen.SameOptions
        (s.operateAll interrupted).machine.screen := by
  intro program machine s keys slot reload operations interrupted
  have hframe := fun t : Scheduler Mute => tick_frame t keys
  have hreloaded : ((((s.operate slot).operate slot).operate slot).operate reload).isActive := by
    refine isActive_reload ?_ ?_ (by decide)
    · rw [(hframe _).2, (hframe _).2, (hframe _).2]
    · rw [(hframe _).1, (hframe _).1, (hframe _).1]
  have h : Interrupted s operations interrupted := by
    -- by definition only where no slot has to be evaluated
    refine .pause [keys.press 5] rfl (.same slot (.same slot (.same slot (.same reload ?_))))
    exact .pause [keys, keys.press 3] hreloaded (.same slot (.same slot (.nil _)))
  exact ⟨rfl, h, pause_transparent h⟩

end Scheduler

end Schip
