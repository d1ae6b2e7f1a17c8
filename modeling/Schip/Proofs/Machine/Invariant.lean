import Schip.Machine.Program
import Schip.Proofs.Machine.Bookkeeping
import Schip.Proofs.Machine.Drawing

/-!
# Invariant of a running machine

What holds of a machine in every state that it can reach: the grid has the size of its mode, every
pixel is zero or one, and the pointer of the call stack is between full and empty. `Safe.act` is the
step lemma, `Safe.perform` the one for whole runs, and `safe_loadProgram` says that a load leaves
it so.
-/

set_option autoImplicit false

namespace Schip

/-- Both pixels of a cell are zero or one. -/
structure Cell.Binary (cell : Cell) : Prop where
  logical : cell.logical = 0 ∨ cell.logical = 1
  render : cell.render = 0 ∨ cell.render = 1

/-- Zeros and ones stay zeros and ones under all edits of the screen. -/
theorem FrameBuffer.cellInvariant_binary :
    CellInvariant (fun _ _ => True) (fun _ cell => cell.Binary) where
  blank := fun _ => ⟨Or.inl rfl, Or.inl rfl⟩
  copy := fun _ _ _ h => ⟨h.logical, h.logical⟩
  light := by
    rintro (_ | _) cell h
    -- in the hidden row the rendered pixel stays as it is
    · exact ⟨Or.inr rfl, h.render⟩
    · exact ⟨Or.inr rfl, Or.inr rfl⟩
  extinguish := by
    rintro _ cell (_ | _) delay - - h
    · exact ⟨Or.inl rfl, Or.inl rfl⟩
    -- with afterglow the rendered pixel stays as it is
    · exact ⟨Or.inl rfl, h.render⟩
  age := by
    intro _ cell h
    refine ⟨by rw [Cell.logical_age]; exact h.logical, ?_⟩
    rw [Cell.age]
    split
    · split
      · exact Or.inl rfl
      · exact h.render
    · exact h.render

namespace Machine

/-- State in which a machine may be. -/
structure Safe (m : Machine) : Prop where
  grid : m.screen.WellFormed
  pixels : m.screen.EachCell fun _ cell => cell.Binary
  stack : m.registers.stack.Valid

variable {m : Machine}

/-! ## Call stack -/

/-- Instructions keep the call stack valid. -/
theorem valid_effect (h : m.registers.stack.Valid) (instruction : Instruction) :
    (m.effect instruction).registers.stack.Valid := by
  cases instruction with
  | call target =>
      rw [effect, stack_call]
      exact h.push m.registers.pc
  | ret =>
      rw [effect, stack_ret]
      exact h.pop
  | _ =>
      rw [stack_effect m (by simp) (by simp)]
      exact h

/-- A cycle keeps the call stack valid. -/
theorem valid_cycle (h : m.registers.stack.Valid) : m.cycle.2.registers.stack.Valid := by
  have hfetch := registers_fetch m
  rw [stack_cycle]
  cases hins : m.fetch.1 with
  | none =>
      rw [fetchExecute_of_none hins, hfetch]
      exact h
  | some instruction =>
      rw [fetchExecute_of_some hins]
      exact valid_effect (hfetch ▸ h) instruction

theorem valid_act (h : m.registers.stack.Valid) (activity : Activity) :
    (m.act activity).2.registers.stack.Valid := by
  cases activity with
  | cycle => exact valid_cycle h
  | key | render => exact h

/-! ## Steps and runs -/

/-- A cycle keeps a machine safe. -/
theorem Safe.cycle (h : m.Safe) : m.cycle.2.Safe where
  grid := (cycle_drawnFrom m).wellFormed h.grid
  pixels := ((cycle_drawnFrom m).satisfies FrameBuffer.cellInvariant_binary ⟨trivial, h.pixels⟩).cells
  stack := valid_cycle h.stack

/-- Every activity keeps a machine safe. -/
theorem Safe.act (h : m.Safe) (activity : Activity) : (m.act activity).2.Safe := by
  cases activity with
  | cycle => exact h.cycle
  | key key down => exact ⟨h.grid, h.pixels, h.stack⟩
  | render edit =>
      cases edit with
      | fade =>
          exact ⟨h.grid.updateDecay,
            (FrameBuffer.cellInvariant_binary.updateDecay ⟨trivial, h.pixels⟩).cells, h.stack⟩
      | reduceFlicker on => exact ⟨h.grid, h.pixels, h.stack⟩
      | decayDelay delay => exact ⟨h.grid, h.pixels, h.stack⟩

/-- All activities in order keep a machine safe. -/
theorem Safe.perform (h : m.Safe) (activities : List Activity) :
    (m.perform activities).2.Safe := by
  induction activities generalizing m with
  | nil => exact h
  | cons activity rest ih => exact ih (h.act activity)

/-- A reset makes any machine safe. -/
theorem safe_reset (m : Machine) : m.reset.Safe where
  grid := FrameBuffer.wellFormed_setMode m.screen .standard
  pixels := (FrameBuffer.cellInvariant_binary.setMode .standard trivial).cells
  stack := CallStack.valid_empty

/-- A load starts with a reset, and leaves the state safe whether it succeeds or fails. -/
theorem safe_loadProgram (m : Machine) (source : ByteSource) : (m.loadProgram source).2.Safe := by
  obtain ⟨hgrid, hpixels, hstack⟩ := safe_reset m
  rw [loadProgram]
  cases source.readAll with
  | error reason => exact ⟨hgrid, hpixels, hstack⟩
  | ok program =>
      dsimp only
      rcases m.reset.dropProgram.memory.loadProgram (.ofBytes program) with ⟨_ | _, _⟩
      · exact ⟨hgrid, hpixels, hstack⟩
      · exact ⟨hgrid, hpixels, hstack⟩

end Machine

end Schip
