import Schip.Proofs.Machine.Activity
import Schip.Proofs.Machine.ExchangedScreen
import Schip.Proofs.Machine.Transfer
import Schip.Proofs.Screen.Edit

/-!
# What execution does to the screen

An instruction makes at most one operation on the screen (`effect_drawnFrom`), and so does a cycle
(`cycle_drawnFrom`).
-/

set_option autoImplicit false

namespace Schip.Machine

/-- Screen after the instruction that draws. -/
theorem screen_drawSprite (m : Machine) (x y rowBytes rows : Nat) :
    (m.drawSprite x y rowBytes rows).screen =
      m.screen.apply (.drawSprite (m.registers.v x).toNat (m.registers.v y).toNat (rowBytes * 8)
        ((m.loadBytes m.registers.index.toNat (rowBytes * rows)).1.flatMap
          FrameBuffer.bytePixels)) := by
  have hscreen := screen_loadBytes m m.registers.index.toNat (rowBytes * rows)
  have hregisters := registers_loadBytes m m.registers.index.toNat (rowBytes * rows)
  rw [drawSprite]
  -- the bytes of the sprite are loaded first; that leaves the screen and the registers alone
  generalize m.loadBytes m.registers.index.toNat (rowBytes * rows) = loaded at hscreen hregisters
  rw [← hscreen, ← hregisters]
  rfl

/-- Instructions change the screen by its own edits. -/
theorem effect_drawnFrom (m : Machine) (instruction : Instruction) :
    m.screen.DrawnFrom (m.effect instruction).screen := by
  cases hscreen : instruction.usesScreen with
  | false => exact Or.inl (screen_effect m hscreen)
  | true =>
      cases instruction with
      | scrollDown n => exact Or.inr ⟨.scrollDown n.toNat, rfl, rfl⟩
      | clearScreen => exact Or.inr ⟨.clear, rfl, rfl⟩
      | scrollRight => exact Or.inr ⟨.scrollRight, rfl, rfl⟩
      | scrollLeft => exact Or.inr ⟨.scrollLeft, rfl, rfl⟩
      | lowRes => exact Or.inr ⟨.setMode .standard, rfl, rfl⟩
      | highRes => exact Or.inr ⟨.setMode .extended, rfl, rfl⟩
      | draw x y n => exact Or.inr ⟨_, rfl, screen_drawSprite m x y 1 n.toNat⟩
      | drawExtended x y => exact Or.inr ⟨_, rfl, screen_drawSprite m x y 2 16⟩
      | _ => cases hscreen

theorem screen_fetch (m : Machine) : m.fetch.2.screen = m.screen := by
  rw [fetch]
  cases m.memory.word m.registers.pc.toNat <;> rfl

/-- Fetch and execution change the screen by its own edits. -/
theorem fetchExecute_drawnFrom (m : Machine) :
    m.screen.DrawnFrom m.fetchExecute.2.2.screen := by
  rw [← screen_fetch]
  cases hins : m.fetch.1 with
  | none =>
      rw [fetchExecute_of_none hins]
      exact Or.inl rfl
  | some instruction =>
      rw [fetchExecute_of_some hins]
      exact effect_drawnFrom m.fetch.2 instruction

/-- The end of a cycle leaves the screen alone. -/
theorem screen_cycle (m : Machine) : m.cycle.2.screen = m.fetchExecute.2.2.screen := by
  rw [cycle_eq]
  split <;> rfl

/-- A cycle changes the screen by its own edits. -/
theorem cycle_drawnFrom (m : Machine) : m.screen.DrawnFrom m.cycle.2.screen := by
  rw [screen_cycle]
  exact fetchExecute_drawnFrom m

end Schip.Machine
