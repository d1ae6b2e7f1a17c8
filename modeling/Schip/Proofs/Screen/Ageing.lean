import Schip.Proofs.Screen.Coherence
import Schip.Proofs.Screen.SameLogical

/-!
# Cells growing old

What becomes of a cell to which nothing but updates happens. A countdown of `t` stands at `t - n`
after `n < t` updates and is over from the `t`-th update on, when the cell is blank
(`Cell.Coherent.afterUpdates_of_timer`). A cell without a countdown stays as it is.

Over the whole grid all countdowns go down by one with each update
(`SatisfiesCoherent.timers_repeated_updateDecay`). Once they are over the grid is `Settled`: it is
shown as it is, and updates change nothing any more.
-/

set_option autoImplicit false

namespace Schip

/-- Countdown some updates later. -/
def remaining (n : Nat) (timer : Option UInt32) : Option UInt32 :=
  timer.bind fun t => if n < t.toNat then some (UInt32.ofNat (t.toNat - n)) else none

/-- A countdown is over after as many updates as it had left. -/
theorem remaining_eq_none_iff {n : Nat} {timer : Option UInt32} :
    remaining n timer = none ↔ ∀ t, timer = some t → t.toNat ≤ n := by
  cases timer with
  | none => simp [remaining]
  | some t => simp [remaining]

namespace Cell

/-- Cell some updates later. -/
def afterUpdates : Nat → Cell → Cell
  | 0, cell => cell
  | n + 1, cell => afterUpdates n cell.age

variable {visible : Bool} {cell : Cell}

theorem afterUpdates_add (m n : Nat) (cell : Cell) :
    (cell.afterUpdates m).afterUpdates n = cell.afterUpdates (m + n) := by
  induction m generalizing cell with
  | zero => rw [Nat.zero_add, afterUpdates]
  | succ m ih =>
      rw [Nat.succ_add, afterUpdates, afterUpdates]
      exact ih cell.age

/-- Updates do not touch the logical pixel. -/
theorem logical_afterUpdates (n : Nat) (cell : Cell) :
    (cell.afterUpdates n).logical = cell.logical := by
  induction n generalizing cell with
  | zero => rfl
  | succ n ih => exact (ih cell.age).trans (logical_age cell)

theorem afterUpdates_of_no_timer (h : cell.timer = none) (n : Nat) :
    cell.afterUpdates n = cell := by
  induction n with
  | zero => rfl
  | succ n ih =>
      rw [Cell.afterUpdates, age_of_no_timer h]
      exact ih

/-- A cell that counts down goes on to do so until the countdown is over, and is blank then. -/
theorem Coherent.afterUpdates_of_timer (h : cell.Coherent visible) {t : UInt32}
    (ht : cell.timer = some t) (n : Nat) :
    cell.afterUpdates n =
      if n < t.toNat then { cell with timer := some (UInt32.ofNat (t.toNat - n)) }
      else blank := by
  have hone : (1 : UInt32).toNat = 1 := rfl
  induction n generalizing cell t with
  | zero =>
      have hpos : 0 < t.toNat := UInt32.le_iff_toNat_le.1 (h.fading t ht).1
      rw [if_pos hpos, Nat.sub_zero, UInt32.ofNat_toNat, ← ht]
      rfl
  | succ n ih =>
      have hage := h.age_of_timer ht
      rw [Cell.afterUpdates]
      by_cases hlast : t ≤ 1
      · have hover : ¬n + 1 < t.toNat := by
          have hle := UInt32.le_iff_toNat_le.1 hlast
          omega
        rw [if_pos hlast] at hage
        rw [hage, if_neg hover]
        exact afterUpdates_of_no_timer rfl n
      -- the countdown is one less, and so is what is left of the updates
      · have hlt : 1 < t := UInt32.not_le.1 hlast
        have hless : (t - 1).toNat = t.toNat - 1 :=
          UInt32.toNat_sub_of_le _ _ (UInt32.le_of_lt hlt)
        have hleft : (t - 1).toNat - n = t.toNat - (n + 1) := by omega
        have hlong : n < (t - 1).toNat ↔ n + 1 < t.toNat := by omega
        rw [if_neg hlast] at hage
        have hcoherent := h.age
        rw [hage] at hcoherent
        rw [hage, ih hcoherent rfl, hleft]
        simp only [hlong]

/-- Every countdown is the one of before less the updates. -/
theorem Coherent.timer_afterUpdates (h : cell.Coherent visible) (n : Nat) :
    (cell.afterUpdates n).timer = remaining n cell.timer := by
  cases ht : cell.timer with
  | none => rw [afterUpdates_of_no_timer ht, ht, remaining, Option.bind_none]
  | some t =>
      rw [h.afterUpdates_of_timer ht, remaining, Option.bind_some]
      split
      · rfl
      · rfl

/-- A coherent cell without a countdown is rendered as it is. -/
theorem Coherent.faithful (h : cell.Coherent visible) (hnone : cell.timer = none) :
    cell.Faithful visible := by
  rintro rfl
  by_cases hdark : cell.logical = 0
  · rw [h.dark hdark hnone, hdark]
  · exact h.lit rfl hdark

/-- A visible cell that is lit is nothing but lit. -/
theorem Coherent.eq_absolute (h : cell.Coherent true) (hlit : cell.logical ≠ 0) :
    cell = absolute cell.logical := by
  have hnone : cell.timer = none := by
    cases ht : cell.timer with
    | none => rfl
    | some t => exact absurd (h.fading t ht).2 hlit
  have hpending : cell.pending = false := by
    rw [← Bool.not_eq_true, h.pending_iff, hnone]
    simp
  have hrender := h.lit rfl hlit
  cases cell
  simp_all [absolute]

end Cell

namespace FrameBuffer

/-! ## All cells -/

variable {fb : FrameBuffer}

/-- Updates in a row age each cell that many times. -/
theorem repeated_updateDecay (n : Nat) (fb : FrameBuffer) :
    repeated updateDecay n fb = { fb with cells := fb.cells.map (Cell.afterUpdates n) } := by
  induction n generalizing fb with
  | zero =>
      have hsame : Cell.afterUpdates 0 = id := rfl
      rw [repeated, hsame, Array.map_id]
  | succ n ih =>
      have hfirst : Cell.afterUpdates (n + 1) = Cell.afterUpdates n ∘ Cell.age := rfl
      rw [repeated, ih, hfirst, ← Array.map_map]
      rfl

theorem sameLogical_repeated_updateDecay (n : Nat) (fb : FrameBuffer) :
    fb.SameLogical (repeated updateDecay n fb) :=
  repeated_preserves (fb.SameLogical ·) updateDecay
    (fun aged h => h.trans (sameLogical_updateDecay aged)) n fb (SameLogical.refl fb)

theorem SatisfiesCoherent.repeated_updateDecay (h : fb.SatisfiesCoherent) (n : Nat) :
    (repeated updateDecay n fb).SatisfiesCoherent :=
  repeated_preserves SatisfiesCoherent updateDecay
    (fun _ => cellInvariant_coherent.updateDecay) n fb h

/-- Every countdown of the grid is the one of before less the updates. -/
theorem SatisfiesCoherent.timers_repeated_updateDecay (h : fb.SatisfiesCoherent) (n : Nat) :
    (repeated updateDecay n fb).cells.map Cell.timer =
      fb.cells.map fun cell => remaining n cell.timer := by
  rw [FrameBuffer.repeated_updateDecay, Array.map_map]
  apply Array.map_congr_left
  intro cell hcell
  obtain ⟨i, hi⟩ := Array.getElem?_of_mem hcell
  exact (h.cells i cell hi).timer_afterUpdates n

/-- No cell counts down. -/
def Settled (fb : FrameBuffer) : Prop := ∀ cell ∈ fb.cells, cell.timer = none

/-- Nothing is left to fade once as many updates have happened as the longest countdown says. -/
theorem SatisfiesCoherent.settled (h : fb.SatisfiesCoherent) {n : Nat}
    (hover : ∀ cell ∈ fb.cells, ∀ t, cell.timer = some t → t.toNat ≤ n) :
    (repeated updateDecay n fb).Settled := by
  intro cell hcell
  have htimer : cell.timer ∈ (repeated updateDecay n fb).cells.map Cell.timer :=
    Array.mem_map_of_mem hcell
  rw [h.timers_repeated_updateDecay] at htimer
  obtain ⟨old, hold, heq⟩ := Array.mem_map.1 htimer
  rw [← heq, remaining_eq_none_iff]
  exact hover old hold

/-- A screen without countdowns is not changed by any number of updates. -/
theorem Settled.repeated_updateDecay (h : fb.Settled) (n : Nat) :
    repeated updateDecay n fb = fb := by
  have hcells : fb.cells.map (Cell.afterUpdates n) = fb.cells.map id :=
    Array.map_congr_left fun cell hcell => Cell.afterUpdates_of_no_timer (h cell hcell) n
  rw [FrameBuffer.repeated_updateDecay, hcells, Array.map_id]

/-- A frame buffer in which nothing fades is shown as it is. -/
theorem SatisfiesCoherent.renderData_eq (h : fb.SatisfiesCoherent) (hsettled : fb.Settled) :
    fb.renderData = fb.logicalData := by
  apply EachCell.renderData_eq
  intro i cell hcell
  exact (h.cells i cell hcell).faithful (hsettled cell (Array.mem_of_getElem? hcell))

end FrameBuffer

end Schip
