import Schip.Machine.Cycle

/-!
# Activities of a running machine

What can happen to a machine between two looks at it: a cycle, a change of a key, a change that
concerns the display alone. `perform` runs a sequence of them and collects the reports of the
cycles. The parts of a cycle are named here for all proofs about it (`cycle_eq`,
`fetchExecute_of_none`, `fetchExecute_of_some`).
-/

set_option autoImplicit false

namespace Schip

/-- Change that concerns the display alone. -/
inductive RenderEdit where
  | fade
  | reduceFlicker (on : Bool)
  | decayDelay (delay : UInt32)
  deriving DecidableEq, Repr

/-- Frame buffer after a change that concerns the display alone. -/
def RenderEdit.apply (fb : FrameBuffer) : RenderEdit → FrameBuffer
  | .fade => fb.updateDecay
  | .reduceFlicker on => fb.setReduceFlicker on
  | .decayDelay delay => fb.setDecayDelay delay

/-- What happens to a machine that runs. -/
inductive Activity where
  | cycle
  /-- A key goes down or up. -/
  | key (key : UInt8) (down : Bool)
  | render (edit : RenderEdit)
  deriving DecidableEq, Repr

/-- Whether an activity concerns more than the display. -/
def Activity.isExecution : Activity → Bool
  | .render _ => false
  | _ => true

namespace Machine

/-- One activity, with the report of the cycle if it is one. -/
def act (m : Machine) : Activity → List Step × Machine
  | .cycle => ([m.cycle.1], m.cycle.2)
  | .key key down => ([], m.withKeypad (m.keypad.setKey key down))
  | .render edit => ([], m.withScreen (edit.apply m.screen))

/-- Activities in order, with the reports of all cycles. -/
def perform (m : Machine) : List Activity → List Step × Machine
  | [] => ([], m)
  | activity :: rest =>
    ((m.act activity).1 ++ ((m.act activity).2.perform rest).1, ((m.act activity).2.perform rest).2)

/-! ## Parts of a cycle -/

/-- Without an instruction nothing is executed. -/
theorem fetchExecute_of_none {m : Machine} (h : m.fetch.1 = none) :
    m.fetchExecute = (none, .proceed, m.fetch.2) := by
  rw [fetchExecute]
  generalize m.fetch = fetched at h
  obtain ⟨_, _⟩ := fetched
  cases h
  rfl

/-- An instruction that is fetched is executed. -/
theorem fetchExecute_of_some {m : Machine} {instruction : Instruction}
    (h : m.fetch.1 = some instruction) :
    m.fetchExecute = (some instruction, m.fetch.2.execute instruction) := by
  rw [fetchExecute]
  generalize m.fetch = fetched at h
  obtain ⟨_, _⟩ := fetched
  cases h
  rfl

/-- State and faults at the end of a cycle that asked for `outcome`. -/
theorem cycle_eq (m : Machine) : m.cycle =
    (⟨m.registers.pc, m.fetchExecute.1, m.fetchExecute.2.1,
      (if m.fetchExecute.2.1 = .exit then m.fetchExecute.2.2
        else m.fetchExecute.2.2.finishCycle).takeFaults.1⟩,
      (if m.fetchExecute.2.1 = .exit then m.fetchExecute.2.2
        else m.fetchExecute.2.2.finishCycle).takeFaults.2) := rfl

theorem fetch_of_word {m : Machine} {word : UInt16}
    (h : m.memory.word m.registers.pc.toNat = .ok word) :
    m.fetch = (some (Instruction.decode word), m) := by
  simp only [fetch, h]

/-- A word at the program counter is decoded and executed. -/
theorem fetchExecute_of_word {m : Machine} {word : UInt16}
    (h : m.memory.word m.registers.pc.toNat = .ok word) :
    m.fetchExecute = (some (Instruction.decode word), m.execute (Instruction.decode word)) := by
  rw [fetchExecute, fetch_of_word h]

/-- No other instruction than 00FD ends the program. -/
theorem outcome_eq_exit_iff (registers : Registers) (instruction : Instruction) :
    outcome registers instruction = .exit ↔ instruction = .exit := by
  cases instruction
  case setSound x =>
      simp only [outcome]
      split <;> simp
  all_goals simp [outcome]

/-- The instruction of a cycle is 00FD exactly when the cycle ends the program. -/
theorem exit_iff (m : Machine) :
    m.cycle.1.instruction = some .exit ↔ m.cycle.1.outcome = .exit := by
  rw [cycle_eq]
  cases hfetch : m.fetch.1 with
  | none => simp [fetchExecute_of_none hfetch]
  | some instruction =>
      simp only [fetchExecute_of_some hfetch, execute, Option.some.injEq, outcome_eq_exit_iff]

end Machine

end Schip
