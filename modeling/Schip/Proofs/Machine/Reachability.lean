import Schip.Proofs.Machine.Invariant
import Schip.Proofs.Machine.Renewal

/-!
# Reachable machines

The states that a machine can come to from power-on, by loads, resets and restarts, cycles and
single instructions, changes of keys and of the display. Each of them is safe
(`Reachable.safe`), by one lemma for each way to go on.
-/

set_option autoImplicit false

namespace Schip.Machine

/-- State that a machine can come to. -/
inductive Reachable : Machine → Prop where
  | new (config : Config) (random : RandomSource) : Reachable (new config random)
  | handle {m : Machine} (h : Reachable m) (handling : Handling) : Reachable (m.handle handling)
  | act {m : Machine} (h : Reachable m) (activity : Activity) : Reachable (m.act activity).2
  | execute {m : Machine} (h : Reachable m) (instruction : Instruction) :
    Reachable (m.execute instruction).2

variable {m : Machine}

/-- A new machine is safe. -/
theorem safe_new (config : Config) (random : RandomSource) : (new config random).Safe where
  grid := FrameBuffer.wellFormed_new
  pixels := by
    intro i cell hcell
    have hblank : cell = Cell.blank := Array.eq_of_mem_replicate (Array.mem_of_getElem? hcell)
    rw [hblank]
    exact ⟨Or.inl rfl, Or.inl rfl⟩
  stack := CallStack.valid_empty

/-- Loading a file leaves a machine safe, whether it is read or not. -/
theorem Safe.loadFile (h : m.Safe) (file : ProgramFile) : (m.loadFile file).2.Safe := by
  rw [Machine.loadFile]
  cases file.openSource with
  | error reason => exact h
  | ok source => exact safe_loadProgram m source

/-- A restart makes any machine safe. -/
theorem safe_restart (m : Machine) : m.restart.2.Safe := by
  cases hprogram : m.program with
  | none =>
      rw [restart_of_none hprogram]
      exact safe_reset m
  | some program =>
      rw [restart_of_some hprogram]
      exact safe_loadProgram _ _

/-- Whatever a machine is handled with, it stays safe. -/
theorem Safe.handle (h : m.Safe) (handling : Handling) : (m.handle handling).Safe := by
  cases handling with
  | load source => exact safe_loadProgram m source
  | loadFile file => exact h.loadFile file
  | cycle => exact h.cycle
  | key key down => exact h.act (.key key down)
  | fade => exact h.act (.render .fade)
  | reset => exact safe_reset m
  | restart => exact safe_restart m

/-- One instruction on its own keeps a machine safe. -/
theorem Safe.execute (h : m.Safe) (instruction : Instruction) :
    (m.execute instruction).2.Safe where
  grid := (effect_drawnFrom m instruction).wellFormed h.grid
  pixels := ((effect_drawnFrom m instruction).satisfies FrameBuffer.cellInvariant_binary
    ⟨trivial, h.pixels⟩).cells
  stack := valid_effect h.stack instruction

/-- Every machine that can be reached is safe. -/
theorem Reachable.safe (h : m.Reachable) : m.Safe := by
  induction h with
  | new config random => exact safe_new config random
  | handle _ handling ih => exact ih.handle handling
  | act _ activity ih => exact ih.act activity
  | execute _ instruction ih => exact ih.execute instruction

end Schip.Machine
