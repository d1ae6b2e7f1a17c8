import Schip.Proofs.Machine.Activity
import Schip.Proofs.Machine.ExchangedScreen
import Schip.Proofs.Screen.SameLogical

/-!
# Execution does not look at the display

Two machines that agree on everything that programs can see, but have arbitrary rendered pixels,
afterglow and afterglow options, execute alike. `Machine.Agree` is the relation, and a step lemma for
each level keeps it: `Agree.effect` for one instruction, `Agree.cycle` for one cycle, `Agree.act` for
one activity. `steps_independent_of_rendering` is the statement about whole runs, in which changes
that concern the display alone may be made on either side between the cycles.
-/

set_option autoImplicit false

namespace Schip

namespace Machine

/-- Same state apart from the keys and from what concerns the display alone. -/
structure SameCore (m m' : Machine) : Prop where
  registers : m.registers = m'.registers
  memory : m.memory = m'.memory
  screen : m.screen.SameLogical m'.screen
  program : m.program = m'.program
  incrementIndex : m.incrementIndex = m'.incrementIndex
  random : m.random = m'.random
  faults : m.faults = m'.faults

/-- Same state apart from what concerns the display alone. -/
structure Agree (m m' : Machine) : Prop extends SameCore m m' where
  keypad : m.keypad = m'.keypad

theorem Agree.refl (m : Machine) : m.Agree m :=
  ⟨⟨rfl, rfl, FrameBuffer.SameLogical.refl _, rfl, rfl, rfl, rfl⟩, rfl⟩

/-- Another screen with the same pixels makes no difference that counts. -/
theorem agree_withScreen (m : Machine) {fb : FrameBuffer} (h : m.screen.SameLogical fb) :
    m.Agree (m.withScreen fb) :=
  ⟨⟨rfl, rfl, h, rfl, rfl, rfl, rfl⟩, rfl⟩

/-- Machines that agree differ at most in their screens. -/
theorem Agree.eq_withScreen {m m' : Machine} (h : m.Agree m') : m' = m.withScreen m'.screen := by
  obtain ⟨⟨hr, hm, -, hp, hi, hrand, hf⟩, hk⟩ := h
  cases m
  cases m'
  simp_all [withScreen]

theorem Agree.symm {m m' : Machine} (h : m.Agree m') : m'.Agree m :=
  ⟨⟨h.registers.symm, h.memory.symm, h.screen.symm, h.program.symm, h.incrementIndex.symm,
    h.random.symm, h.faults.symm⟩, h.keypad.symm⟩

theorem Agree.trans {m m' m'' : Machine} (h : m.Agree m') (h' : m'.Agree m'') : m.Agree m'' :=
  ⟨⟨h.registers.trans h'.registers, h.memory.trans h'.memory, h.screen.trans h'.screen,
    h.program.trans h'.program, h.incrementIndex.trans h'.incrementIndex,
    h.random.trans h'.random, h.faults.trans h'.faults⟩, h.keypad.trans h'.keypad⟩

theorem Agree.withScreen {m m' : Machine} {fb fb' : FrameBuffer} (h : m.Agree m')
    (hfb : fb.SameLogical fb') : (m.withScreen fb).Agree (m'.withScreen fb') :=
  ⟨⟨h.registers, h.memory, hfb, h.program, h.incrementIndex, h.random, h.faults⟩, h.keypad⟩

theorem Agree.withRegisters {m m' : Machine} (h : m.Agree m') (registers : Registers) :
    (m.withRegisters registers).Agree (m'.withRegisters registers) :=
  ⟨⟨rfl, h.memory, h.screen, h.program, h.incrementIndex, h.random, h.faults⟩, h.keypad⟩

/-- Setting the same register keeps two machines in agreement. -/
theorem Agree.setV {m m' : Machine} (h : m.Agree m') (x : Nat) (value : UInt8) :
    (m.setV x value).Agree (m'.setV x value) := by
  rw [Machine.setV, Machine.setV, h.registers]
  exact h.withRegisters _

/-- Drawing: the collision, and with it the flag, is found by the logical pixels alone. -/
theorem Agree.drawSprite {m m' : Machine} (h : m.Agree m') (x y rowBytes rows : Nat) :
    (m.drawSprite x y rowBytes rows).Agree (m'.drawSprite x y rowBytes rows) := by
  -- the same machine with two screens, so both sides load the same bytes
  rw [h.eq_withScreen]
  simp only [Machine.drawSprite, registers_withScreen, loadBytes_withScreen, screen_withScreen]
  have hload : (m.loadBytes m.registers.index.toNat (rowBytes * rows)).2.screen.SameLogical
      m'.screen := by
    rw [screen_loadBytes]
    exact h.screen
  generalize m.loadBytes m.registers.index.toNat (rowBytes * rows) = loaded at hload
  obtain ⟨hhit, hdrawn⟩ := hload.drawSprite (loaded.2.registers.v x).toNat
    (loaded.2.registers.v y).toNat (rowBytes * 8) (loaded.1.flatMap FrameBuffer.bytePixels)
  rw [hhit]
  exact ((Agree.refl loaded.2).withScreen hdrawn).setV _ _

/-- Every instruction keeps two machines in agreement, one case for each constructor. -/
theorem Agree.effect {m m' : Machine} (h : m.Agree m') (instruction : Instruction) :
    (m.effect instruction).Agree (m'.effect instruction) := by
  cases hscreen : instruction.usesScreen with
  | false =>
      -- the instruction leaves both screens as they are
      rw [h.eq_withScreen, effect_withScreen m _ hscreen]
      refine agree_withScreen _ ?_
      rw [screen_effect m hscreen]
      exact h.screen
  | true =>
      cases instruction with
      | scrollDown n => exact h.withScreen (h.screen.scrollDown n.toNat)
      | clearScreen => exact h.withScreen h.screen.clear
      | scrollRight => exact h.withScreen h.screen.scrollRight
      | scrollLeft => exact h.withScreen h.screen.scrollLeft
      | lowRes => exact h.withScreen (.setMode .standard)
      | highRes => exact h.withScreen (.setMode .extended)
      | draw x y n => exact h.drawSprite x y 1 n.toNat
      | drawExtended x y => exact h.drawSprite x y 2 16
      | _ => cases hscreen

/-! ## Cycles -/

/-- Machines in agreement fetch the same instruction. -/
theorem Agree.fetch {m m' : Machine} (h : m.Agree m') :
    m.fetch.1 = m'.fetch.1 ∧ m.fetch.2.Agree m'.fetch.2 := by
  rw [h.eq_withScreen]
  simp only [Machine.fetch, memory_withScreen, registers_withScreen]
  cases m.memory.word m.registers.pc.toNat with
  | ok word => exact ⟨rfl, agree_withScreen m h.screen⟩
  | error fault => exact ⟨rfl, agree_withScreen (m.record fault) h.screen⟩

/-- Machines in agreement execute the same instruction with the same outcome. -/
theorem Agree.fetchExecute {m m' : Machine} (h : m.Agree m') :
    m.fetchExecute.1 = m'.fetchExecute.1 ∧ m.fetchExecute.2.1 = m'.fetchExecute.2.1 ∧
      m.fetchExecute.2.2.Agree m'.fetchExecute.2.2 := by
  obtain ⟨hfetch, hnext⟩ := h.fetch
  cases hins : m.fetch.1 with
  | none =>
      rw [fetchExecute_of_none hins, fetchExecute_of_none (hfetch.symm.trans hins)]
      exact ⟨rfl, rfl, hnext⟩
  | some instruction =>
      rw [fetchExecute_of_some hins, fetchExecute_of_some (hfetch.symm.trans hins)]
      refine ⟨rfl, ?_, hnext.effect instruction⟩
      simp only [execute, hnext.registers]

/-- Machines in agreement hand out the same faults. -/
theorem Agree.takeFaults {m m' : Machine} (h : m.Agree m') :
    m.takeFaults.1 = m'.takeFaults.1 ∧ m.takeFaults.2.Agree m'.takeFaults.2 :=
  ⟨h.faults, ⟨⟨h.registers, h.memory, h.screen, h.program, h.incrementIndex, h.random, rfl⟩,
    h.keypad⟩⟩

/-- One cycle: the same report, and again machines that agree. -/
theorem Agree.cycle {m m' : Machine} (h : m.Agree m') :
    m.cycle.1 = m'.cycle.1 ∧ m.cycle.2.Agree m'.cycle.2 := by
  obtain ⟨hins, houtcome, hexecuted⟩ := h.fetchExecute
  have hend : (if m.fetchExecute.2.1 = .exit then m.fetchExecute.2.2
        else m.fetchExecute.2.2.finishCycle).Agree
      (if m'.fetchExecute.2.1 = .exit then m'.fetchExecute.2.2
        else m'.fetchExecute.2.2.finishCycle) := by
    rw [houtcome]
    split
    · exact hexecuted
    -- the timers and the program counter are registers
    · rw [finishCycle, finishCycle, hexecuted.registers]
      exact hexecuted.withRegisters _
  obtain ⟨hfaults, hnext⟩ := hend.takeFaults
  rw [cycle_eq, cycle_eq, h.registers, hins, houtcome]
  rw [houtcome] at hfaults hnext
  refine ⟨?_, hnext⟩
  rw [hfaults]

/-! ## Runs -/

/-- A change that concerns the display alone leaves the pixels. -/
theorem RenderEdit.sameLogical (fb : FrameBuffer) (edit : RenderEdit) :
    fb.SameLogical (edit.apply fb) := by
  cases edit with
  | fade => exact FrameBuffer.sameLogical_updateDecay fb
  | reduceFlicker on => exact FrameBuffer.sameLogical_setReduceFlicker fb on
  | decayDelay delay => exact FrameBuffer.sameLogical_setDecayDelay fb delay

/-- The same activity on both sides. -/
theorem Agree.act {m m' : Machine} (h : m.Agree m') {activity : Activity}
    (hexec : activity.isExecution = true) :
    (m.act activity).1 = (m'.act activity).1 ∧ (m.act activity).2.Agree (m'.act activity).2 := by
  cases activity with
  | cycle =>
      obtain ⟨hstep, hnext⟩ := h.cycle
      exact ⟨congrArg (fun step => [step]) hstep, hnext⟩
  | key key down =>
      refine ⟨rfl, ⟨h.registers, h.memory, h.screen, h.program, h.incrementIndex, h.random,
        h.faults⟩, ?_⟩
      exact congrArg (fun keypad => keypad.setKey key down) h.keypad
  | render edit => cases hexec

/-- A change that concerns the display alone, on one side. -/
theorem Agree.render {m m' : Machine} (h : m.Agree m') (edit : RenderEdit) :
    (m.act (.render edit)).2.Agree m' :=
  (agree_withScreen m (RenderEdit.sameLogical m.screen edit)).symm.trans h

/-- A run and the run on the other side without the changes that concern the display alone. -/
theorem Agree.perform_filter {m m' : Machine} (h : m.Agree m') (activities : List Activity) :
    (m.perform activities).1 = (m'.perform (activities.filter Activity.isExecution)).1 ∧
      (m.perform activities).2.Agree
        (m'.perform (activities.filter Activity.isExecution)).2 := by
  -- on the activities of the first side; the second side stands still at a change of the display
  induction activities generalizing m m' with
  | nil => exact ⟨rfl, h⟩
  | cons activity rest ih =>
      cases hexec : activity.isExecution with
      | true =>
          obtain ⟨hsteps, hnext⟩ := h.act hexec
          obtain ⟨hrest, hend⟩ := ih hnext
          rw [List.filter_cons_of_pos hexec]
          refine ⟨?_, hend⟩
          show (m.act activity).1 ++ _ = (m'.act activity).1 ++ _
          rw [hsteps, hrest]
      | false =>
          rw [List.filter_cons_of_neg (Bool.eq_false_iff.1 hexec)]
          cases activity with
          | render edit =>
              obtain ⟨hrest, hend⟩ := ih (h.render edit)
              exact ⟨hrest, hend⟩
          | cycle => cases hexec
          | key key down => cases hexec

/-- Two machines that differ only in what concerns the display report the same steps and agree
again after any number of cycles with the same keys between them, whatever changes that concern the
display alone are made on either side. -/
theorem steps_independent_of_rendering {m m' : Machine} (h : m.Agree m')
    {activities activities' : List Activity}
    (hsame : activities.filter Activity.isExecution =
      activities'.filter Activity.isExecution) :
    (m.perform activities).1 = (m'.perform activities').1 ∧
      (m.perform activities).2.Agree (m'.perform activities').2 := by
  -- both runs agree with the run that makes no such changes at all
  obtain ⟨hsteps, hend⟩ := h.perform_filter activities
  obtain ⟨hsteps', hend'⟩ := (Agree.refl m').perform_filter activities'
  rw [hsame] at hsteps hend
  exact ⟨hsteps.trans hsteps'.symm, hend.trans hend'.symm⟩

/-- A blank machine and one whose cells all glow, with other options and other changes between
two cycles. -/
theorem steps_independent_of_rendering_glowing :
    let m := Machine.new {} (RandomSource.ofSeed 1)
    let glowing := m.withScreen
      { m.screen with
        cells := m.screen.cells.map fun cell =>
          { cell with render := 1, pending := true, timer := some 9 }
        reduceFlicker := false
        decayDelay := 3 }
    let activities : List Activity := [.cycle, .render .fade, .key 5 true, .cycle]
    let activities' : List Activity :=
      [.render (.decayDelay 0), .cycle, .key 5 true, .render (.reduceFlicker true), .cycle]
    m.Agree glowing ∧
      activities.filter Activity.isExecution = activities'.filter Activity.isExecution ∧
      (m.perform activities).1 = (glowing.perform activities').1 ∧
      (m.perform activities).2.Agree (glowing.perform activities').2 := by
  intro m glowing activities activities'
  have hagree : m.Agree glowing := by
    refine agree_withScreen m ⟨rfl, ?_⟩
    rw [Array.map_map]
    rfl
  have hsame : activities.filter Activity.isExecution =
      activities'.filter Activity.isExecution := by decide
  exact ⟨hagree, hsame, steps_independent_of_rendering hagree hsame⟩

end Machine

end Schip
