import Schip.Proofs.Screen.CellInvariant
import Schip.Proofs.Screen.Edit
import Schip.Proofs.Screen.Place

/-!
# Coherence of the frame buffer

The four fields of a cell are written by different operations in different combinations, yet they
never contradict each other: `edits_coherent` says so of every sequence of operations on a new
frame buffer. A marked cell is exactly one with a countdown; a countdown is at least one and runs
only over a dark logical pixel; what is dark and does not glow is not rendered; what is lit in a
visible row is rendered as it is.

Without the reduction of flicker there is no afterglow to see. From any moment at which everything
is dark, as long as the option stays off, the rendered picture is the logical one.
-/

set_option autoImplicit false

namespace Schip

/-- The fields of a cell do not contradict each other. -/
structure Cell.Coherent (visible : Bool) (cell : Cell) : Prop where
  pending_iff : cell.pending = true ↔ cell.timer.isSome = true
  fading : ∀ t, cell.timer = some t → 1 ≤ t ∧ cell.logical = 0
  dark : cell.logical = 0 → cell.timer = none → cell.render = 0
  lit : visible = true → cell.logical ≠ 0 → cell.render = cell.logical

/-- A visible cell is shown as it is. -/
def Cell.Faithful (visible : Bool) (cell : Cell) : Prop :=
  visible = true → cell.render = cell.logical

namespace Cell

variable {visible : Bool} {cell : Cell}

theorem coherent_absolute (visible : Bool) (value : UInt8) : (absolute value).Coherent visible where
  pending_iff := by simp [absolute]
  fading := by simp [absolute]
  dark := fun hdark _ => hdark
  lit := fun _ _ => rfl

theorem coherent_light (visible : Bool) (cell : Cell) : (cell.light visible).Coherent visible where
  pending_iff := by simp [light]
  fading := by simp [light]
  dark := by simp [light]
  lit := by
    rintro rfl -
    rfl

theorem coherent_extinguish (visible : Bool) (cell : Cell) (reduceFlicker : Bool) {delay : UInt32}
    (hdelay : 1 ≤ delay) : (cell.extinguish reduceFlicker delay).Coherent visible where
  pending_iff := by simp [extinguish]
  fading := by
    intro t ht
    cases ht
    exact ⟨hdelay, rfl⟩
  dark := by simp [extinguish]
  lit := fun _ hlit => absurd rfl hlit

theorem age_of_no_timer (h : cell.timer = none) : cell.age = cell := by
  rw [age, h]
  cases cell.pending <;> rfl

/-- The last update of a countdown blanks the cell. -/
theorem Coherent.age_of_timer (h : cell.Coherent visible) {t : UInt32}
    (ht : cell.timer = some t) :
    cell.age = if t ≤ 1 then blank else { cell with timer := some (t - 1) } := by
  have hpending : cell.pending = true := h.pending_iff.2 (by rw [ht]; rfl)
  obtain ⟨-, hdark⟩ := h.fading t ht
  simp only [age, hpending, ht, hdark, blank]

/-- The three things that an update can do to a coherent cell. -/
theorem Coherent.age_cases (h : cell.Coherent visible) :
    (cell.timer = none ∧ cell.age = cell) ∨
      (cell.logical = 0 ∧ cell.age = ⟨0, 0, false, none⟩) ∨
      ∃ t, cell.logical = 0 ∧ 1 < t ∧ cell.pending = true ∧
        cell.age = { cell with timer := some (t - 1) } := by
  cases htimer : cell.timer with
  | none => exact Or.inl ⟨rfl, age_of_no_timer htimer⟩
  | some t =>
      have hpending : cell.pending = true := h.pending_iff.2 (by rw [htimer]; rfl)
      obtain ⟨-, hdark⟩ := h.fading t htimer
      have hage := h.age_of_timer htimer
      by_cases hlast : t ≤ 1
      · rw [if_pos hlast] at hage
        exact Or.inr (Or.inl ⟨hdark, hage⟩)
      · rw [if_neg hlast] at hage
        exact Or.inr (Or.inr ⟨t, hdark, UInt32.not_le.1 hlast, hpending, hage⟩)

/-- An update keeps a cell coherent. -/
theorem Coherent.age (h : cell.Coherent visible) : cell.age.Coherent visible := by
  rcases h.age_cases with ⟨-, heq⟩ | ⟨-, heq⟩ | ⟨t, hdark, ht, hpending, heq⟩
  · rw [heq]
    exact h
  · rw [heq]
    exact coherent_absolute visible 0
  -- the countdown goes on, and was more than one
  · rw [heq]
    refine ⟨by simp [hpending], ?_, by simp, fun _ hlit => absurd hdark hlit⟩
    intro t' ht'
    cases ht'
    refine ⟨?_, hdark⟩
    rw [UInt32.le_iff_toNat_le, UInt32.toNat_sub_of_le _ _ (UInt32.le_of_lt ht)]
    exact Nat.le_sub_of_add_le (UInt32.lt_iff_toNat_lt.1 ht)

/-- An update keeps a coherent cell faithful. -/
theorem Faithful.age (hc : cell.Coherent visible) (hf : cell.Faithful visible) :
    cell.age.Faithful visible := by
  rcases hc.age_cases with ⟨-, heq⟩ | ⟨-, heq⟩ | ⟨t, -, -, -, heq⟩
  · rw [heq]
    exact hf
  · rw [heq]
    intro _
    rfl
  · rw [heq]
    exact hf

end Cell

namespace FrameBuffer

/-- Coherence is kept by every way in which a cell is made, for delays that are not zero. -/
theorem cellInvariant_coherent :
    CellInvariant (fun _ delay => 1 ≤ delay) (fun visible cell => cell.Coherent visible) where
  blank := fun visible => Cell.coherent_absolute visible 0
  copy := fun _ visible' cell _ => Cell.coherent_absolute visible' cell.logical
  light := fun visible cell _ => Cell.coherent_light visible cell
  extinguish := fun visible cell reduceFlicker _ hdelay _ _ =>
    Cell.coherent_extinguish visible cell reduceFlicker hdelay
  age := fun _ _ h => h.age

/-- Without the reduction of flicker a cell stays faithful as well. -/
theorem cellInvariant_faithful :
    CellInvariant (fun reduceFlicker delay => reduceFlicker = false ∧ 1 ≤ delay)
      (fun visible cell => cell.Coherent visible ∧ cell.Faithful visible) where
  blank := fun visible => ⟨Cell.coherent_absolute visible 0, fun _ => rfl⟩
  copy := fun _ visible' cell _ => ⟨Cell.coherent_absolute visible' cell.logical, fun _ => rfl⟩
  light := by
    intro visible cell _
    refine ⟨Cell.coherent_light visible cell, ?_⟩
    rintro rfl
    rfl
  extinguish := by
    rintro visible cell _ delay ⟨rfl, hdelay⟩ _ _
    exact ⟨Cell.coherent_extinguish visible cell false hdelay, fun _ => rfl⟩
  age := fun _ _ h => ⟨h.1.age, h.2.age h.1⟩

/-- Frame buffer of the right size in which no cell contradicts itself. -/
structure Coherent (fb : FrameBuffer) : Prop where
  wellFormed : fb.WellFormed
  cells : fb.EachCell fun visible cell => cell.Coherent visible

/-- No pixel is lit, and none is shown. -/
def Dark (fb : FrameBuffer) : Prop :=
  ∀ cell ∈ fb.cells, cell.logical = 0 ∧ cell.render = 0

variable {fb : FrameBuffer}

theorem dark_of_blankCells {mode : Mode} (h : fb.cells = blankCells mode) : fb.Dark := by
  intro cell hcell
  rw [h] at hcell
  rw [Array.eq_of_mem_replicate hcell]
  exact ⟨rfl, rfl⟩

/-- A screen is dark after it was cleared. -/
theorem dark_clear (fb : FrameBuffer) : fb.clear.Dark := by
  intro cell hcell
  obtain ⟨_, _, rfl⟩ := Array.mem_map.1 hcell
  exact ⟨rfl, rfl⟩

/-! ## One operation -/

theorem one_le_max (delay : UInt32) : 1 ≤ max delay 1 := by
  show 1 ≤ if delay ≤ 1 then 1 else delay
  split
  · exact UInt32.le_refl 1
  · rename_i hlarge
    exact UInt32.le_of_lt (UInt32.not_le.1 hlarge)

/-- What holds of the cells at every moment. -/
abbrev SatisfiesCoherent (fb : FrameBuffer) : Prop :=
  fb.Satisfies (fun _ delay => 1 ≤ delay) (fun visible cell => cell.Coherent visible)

/-- What holds of the cells as long as flicker is not reduced. -/
abbrev SatisfiesFaithful (fb : FrameBuffer) : Prop :=
  fb.Satisfies (fun reduceFlicker delay => reduceFlicker = false ∧ 1 ≤ delay)
    (fun visible cell => cell.Coherent visible ∧ cell.Faithful visible)

/-- Edits that leave flicker reduction off keep the screen rendered as it is. -/
theorem SatisfiesFaithful.apply (h : fb.SatisfiesFaithful) (edit : Edit)
    (hoff : (fb.apply edit).reduceFlicker = false) : (fb.apply edit).SatisfiesFaithful := by
  refine Satisfies.apply cellInvariant_faithful h edit ?_ ?_ ?_
  · intro _ value _ visible
    exact ⟨Cell.coherent_absolute visible value, fun _ => rfl⟩
  · rintro on rfl
    exact ⟨hoff, h.options.2⟩
  · rintro delay rfl
    exact ⟨hoff, one_le_max delay⟩

/-! ## Sequences of operations -/

/-- A sequence of operations keeps an invariant of cells that relies on no more of the options than
that an afterglow lasts at least one update. -/
theorem Satisfies.applyAll {Q : Bool → Cell → Prop}
    (hQ : CellInvariant (fun _ delay => 1 ≤ delay) Q)
    (habsolute : ∀ visible value, Q visible (Cell.absolute value))
    (h : fb.Satisfies (fun _ delay => 1 ≤ delay) Q) (edits : List Edit) :
    (fb.applyAll edits).Satisfies (fun _ delay => 1 ≤ delay) Q := by
  induction edits generalizing fb with
  | nil => exact h
  | cons edit rest ih =>
      apply ih
      exact h.apply hQ edit (fun _ value _ visible => habsolute visible value)
        (fun _ _ => h.options) (fun delay _ => one_le_max delay)

theorem SatisfiesCoherent.applyAll (h : fb.SatisfiesCoherent) (edits : List Edit) :
    (fb.applyAll edits).SatisfiesCoherent :=
  Satisfies.applyAll cellInvariant_coherent Cell.coherent_absolute h edits

theorem satisfiesCoherent_new : new.SatisfiesCoherent := by
  have hdelay : 1 ≤ new.decayDelay := by decide
  exact cellInvariant_coherent.setMode .standard hdelay

theorem SatisfiesFaithful.applyAll (h : fb.SatisfiesFaithful) {edits : List Edit}
    (hoff : ∀ past, past <+: edits → (fb.applyAll past).reduceFlicker = false) :
    (fb.applyAll edits).SatisfiesFaithful := by
  induction edits generalizing fb with
  | nil => exact h
  | cons edit rest ih =>
      -- the option is off after the first operation, and at every moment of the rest
      apply ih (h.apply edit (hoff [edit] ⟨rest, rfl⟩))
      intro past hpast
      exact hoff (edit :: past) (List.cons_prefix_cons.2 ⟨rfl, hpast⟩)

/-- A dark frame buffer is faithful, whatever still counts down. -/
theorem SatisfiesCoherent.faithful_of_dark (h : fb.SatisfiesCoherent) (hdark : fb.Dark)
    (hoff : fb.reduceFlicker = false) : fb.SatisfiesFaithful := by
  refine ⟨⟨hoff, h.options⟩, fun i cell hcell => ⟨h.cells i cell hcell, fun _ => ?_⟩⟩
  obtain ⟨hlogical, hrender⟩ := hdark cell (Array.mem_of_getElem? hcell)
  rw [hlogical, hrender]

/-- The picture of faithful cells. -/
theorem EachCell.renderData_eq (h : fb.EachCell fun visible cell => cell.Faithful visible) :
    fb.renderData = fb.logicalData := by
  apply Array.ext_getElem?
  intro i
  rw [renderData, logicalData, Array.getElem?_map, Array.getElem?_map, getElem?_visible]
  by_cases hi : i < fb.mode.visibleCells
  · rw [if_pos hi]
    apply Option.map_congr
    intro cell hcell
    exact h i cell hcell (decide_eq_true hi)
  · rw [if_neg hi]
    rfl

/-- Of a faithful screen the rendered and the logical pixels are the same. -/
theorem SatisfiesFaithful.renderData_eq (h : fb.SatisfiesFaithful) :
    fb.renderData = fb.logicalData :=
  EachCell.renderData_eq fun i cell hcell => (h.cells i cell hcell).2

/-- At every moment of every sequence of operations on a new frame buffer no cell contradicts
itself. A new, a cleared and a switched frame buffer are dark; and from any dark moment, as long as
flicker is not reduced, the rendered picture is the logical one. -/
theorem edits_coherent :
    (∀ edits, (new.applyAll edits).Coherent) ∧
      (new.Dark ∧ (∀ fb : FrameBuffer, fb.clear.Dark) ∧
        ∀ (fb : FrameBuffer) (mode : Mode), (fb.setMode mode).Dark) ∧
      ∀ before after, (new.applyAll before).Dark →
        (∀ past, past <+: after →
          ((new.applyAll before).applyAll past).reduceFlicker = false) →
        ((new.applyAll before).applyAll after).renderData =
          ((new.applyAll before).applyAll after).logicalData := by
  refine ⟨fun edits => ⟨wellFormed_new.applyAll edits, ?_⟩, ⟨?_, dark_clear, ?_⟩, ?_⟩
  · exact (satisfiesCoherent_new.applyAll edits).cells
  · exact dark_of_blankCells rfl
  · intro fb mode
    exact dark_of_blankCells rfl
  · intro before after hdark hoff
    -- coherence holds from the start, faithfulness from the dark moment on
    have hstart := (satisfiesCoherent_new.applyAll before).faithful_of_dark hdark
      (hoff [] (List.nil_prefix))
    exact (hstart.applyAll hoff).renderData_eq

/-- A pixel switched on and off again without the reduction of flicker. -/
theorem edits_coherent_toggled :
    ((new.applyAll [.setReduceFlicker false]).applyAll
        [.setPixel 3 4 1, .setPixel 3 4 1]).renderData =
      ((new.applyAll [.setReduceFlicker false]).applyAll
        [.setPixel 3 4 1, .setPixel 3 4 1]).logicalData := by
  refine edits_coherent.2.2 [.setReduceFlicker false] [.setPixel 3 4 1, .setPixel 3 4 1] ?_ ?_
  · exact dark_of_blankCells rfl
  · intro past hpast
    refine (sameOptions_applyAll _ fun edit hedit => ?_).reduceFlicker
    have hmem := hpast.subset hedit
    simp only [List.mem_cons, List.not_mem_nil, or_false, or_self] at hmem
    rw [hmem]
    rfl

end FrameBuffer

end Schip
