import Schip.Proofs.Screen.Ageing
import Schip.Proofs.Screen.Coverage

/-!
# The afterglow lasts as long as it should

A visible pixel that is switched off while flicker is reduced stays rendered for as many updates as
the delay was at that moment: not one more, and not one less (`afterglow_exact`). Neither what is
drawn elsewhere nor a later choice of the options changes that. If the pixel is switched on again
before, it is rendered without interruption, and the countdown that ran is forgotten.

The proof follows one cell. Operations that spare it do nothing to it but let it age
(`applyAll_of_spares`), so its history is that of `Cell.afterUpdates`. A sprite may come to the cell
more than once; `LitOrFresh` is what holds of it in between.
-/

set_option autoImplicit false

namespace Schip

/-- Cell that was lit and shown, and was switched off a moment ago. -/
def Cell.fresh (delay : UInt32) : Cell := (Cell.absolute 1).extinguish true delay

namespace FrameBuffer

/-- Whether an operation is the exclusive-or of a pixel or of a sprite. -/
def Edit.isExclusiveOr : Edit → Bool
  | .setPixel _ _ _ | .drawSprite _ _ _ _ => true
  | _ => false

/-- Whether an operation is an update of the afterglow. -/
def Edit.isUpdate : Edit → Bool
  | .updateDecay => true
  | _ => false

/-- Operation after which a cell is at most older: an exclusive-or that puts no lit pixel on it, a
choice of an option, an update. -/
def Edit.Spares (mode : Mode) (row col : Nat) : Edit → Prop
  | .setPixel row' col' bit => ¬PlacedPixel.Covers ⟨row', col', bit⟩ row col
  | .drawSprite x y rowWidth pixels =>
      rowWidth = 0 ∨ ∀ p ∈ placeSprite mode x y rowWidth pixels, ¬p.Covers row col
  | .updateDecay | .setReduceFlicker _ | .setDecayDelay _ => True
  | _ => False

/-- Number of updates among some operations. -/
def updates (edits : List Edit) : Nat := edits.countP Edit.isUpdate

theorem updates_cons (edit : Edit) (rest : List Edit) :
    updates (edit :: rest) = updates [edit] + updates rest := by
  rw [← List.singleton_append, updates, List.countP_append]
  rfl

theorem updates_le_updates {past edits : List Edit} (h : past <+: edits) :
    updates past ≤ updates edits :=
  h.sublist.countP_le

variable {fb : FrameBuffer} {row col : Nat} {cell : Cell}

/-! ## Operations that spare a cell -/

/-- What an operation that spares a cell does to it. -/
theorem apply_of_spares (hcol : col < fb.mode.width)
    (hcell : fb.cells[fb.mode.index row col]? = some cell) {edit : Edit}
    (h : edit.Spares fb.mode row col) :
    (fb.apply edit).mode = fb.mode ∧
      (fb.apply edit).cells[fb.mode.index row col]? =
        some (cell.afterUpdates (updates [edit])) := by
  cases edit with
  | setPixel row' col' bit =>
      exact ⟨mode_setPixel fb row' col' bit, (getElem?_setPixel_of_not_covers hcol h).trans hcell⟩
  | drawSprite x y rowWidth pixels =>
      rw [apply, drawSprite]
      by_cases hwidth : rowWidth = 0
      · rw [if_pos hwidth]
        exact ⟨rfl, hcell⟩
      · have hnone : hits (placeSprite fb.mode x y rowWidth pixels) row col = 0 := by
          refine List.countP_eq_zero.2 fun p hp => ?_
          rw [decide_eq_true_iff]
          exact h.resolve_left hwidth p hp
        rw [if_neg hwidth]
        exact ⟨mode_drawPlaced fb _, (getElem?_drawPlaced_of_hits_eq_zero hcol hnone).trans hcell⟩
  | updateDecay =>
      refine ⟨rfl, ?_⟩
      show (fb.cells.map Cell.age)[fb.mode.index row col]? = _
      rw [Array.getElem?_map, hcell]
      rfl
  | setReduceFlicker | setDecayDelay => exact ⟨rfl, hcell⟩
  | setAbsolute | scrollDown | scrollLeft | scrollRight | clear | setMode => cases h

/-- Edits that spare a cell do no more than age it, once for each update. -/
theorem applyAll_of_spares (hcol : col < fb.mode.width)
    (hcell : fb.cells[fb.mode.index row col]? = some cell) {edits : List Edit}
    (h : ∀ edit ∈ edits, edit.Spares fb.mode row col) :
    (fb.applyAll edits).mode = fb.mode ∧
      (fb.applyAll edits).cells[fb.mode.index row col]? =
        some (cell.afterUpdates (updates edits)) := by
  induction edits generalizing fb cell with
  | nil => exact ⟨rfl, hcell⟩
  | cons edit rest ih =>
      obtain ⟨hedit, hrest⟩ := List.forall_mem_cons.1 h
      obtain ⟨hmode, hstep⟩ := apply_of_spares hcol hcell hedit
      rw [← hmode] at hcol hstep hrest
      obtain ⟨hmode', hend⟩ := ih hcol hstep hrest
      rw [hmode, Cell.afterUpdates_add, ← updates_cons] at hend
      exact ⟨hmode'.trans hmode, hend⟩

/-- Edits that spare a pixel keep it as it is. -/
theorem pixel?_applyAll_of_spares (hcol : col < fb.mode.width) {old : UInt8}
    (hold : fb.pixel? row col = some old) {edits : List Edit}
    (h : ∀ edit ∈ edits, edit.Spares fb.mode row col) :
    (fb.applyAll edits).pixel? row col = some old := by
  obtain ⟨cell, hcell, rfl⟩ := exists_cell_of_pixel? hold
  obtain ⟨hmode, hafter⟩ := applyAll_of_spares hcol hcell h
  rw [← hmode] at hafter
  rw [pixel?_of_cell hafter, Cell.logical_afterUpdates]

/-! ## The operation that switches the cell off -/

/-- The cell at a place is lit, or was switched off a moment ago, while flicker is reduced. -/
structure LitOrFresh (fb : FrameBuffer) (row col : Nat) : Prop where
  reduceFlicker : fb.reduceFlicker = true
  cell : fb.cells[fb.mode.index row col]? = some (Cell.absolute 1) ∨
    fb.cells[fb.mode.index row col]? = some (Cell.fresh fb.decayDelay)

/-- One pixel, wherever it falls, keeps the cell in these two states. -/
theorem LitOrFresh.setPixel (h : fb.LitOrFresh row col) (hrow : row < fb.mode.height)
    (hcol : col < fb.mode.width) (p : PlacedPixel) :
    (fb.setPixel p.row p.col p.bit).2.LitOrFresh row col := by
  obtain ⟨hflicker, hdelay⟩ := sameOptions_setPixel fb p.row p.col p.bit
  refine ⟨hflicker.trans h.reduceFlicker, ?_⟩
  rw [mode_setPixel, hdelay]
  by_cases hcovers : p.Covers row col
  · obtain ⟨hbit, rfl, rfl⟩ := hcovers
    have hnew : ∀ {old} new, fb.cells[fb.mode.index p.row p.col]? = some old →
        (fb.setCell (fb.mode.index p.row p.col) new).cells[fb.mode.index p.row p.col]? =
          some new := by
      intro old new hold
      rw [getElem?_setCell, if_pos rfl, hold, Option.map_some]
    rcases h.cell with hlit | hfresh
    -- switched off
    · right
      rw [setPixel_of_lit ⟨hbit, hcol, hlit⟩ rfl, h.reduceFlicker]
      exact hnew _ hlit
    -- switched on again by the same sprite
    · left
      have hdark : (Cell.fresh fb.decayDelay).logical ≠ 1 := by
        show (0 : UInt8) ≠ 1
        decide
      rw [setPixel_of_unlit ⟨hbit, hcol, hfresh⟩ hdark, decide_eq_true hrow]
      exact hnew _ hfresh
  · rw [getElem?_setPixel_of_not_covers hcol hcovers]
    exact h.cell

theorem LitOrFresh.drawPlaced (h : fb.LitOrFresh row col) (hrow : row < fb.mode.height)
    (hcol : col < fb.mode.width) (pixels : List PlacedPixel) :
    (fb.drawPlaced pixels).2.LitOrFresh row col := by
  induction pixels generalizing fb with
  | nil => exact h
  | cons p rest ih =>
      have hnext := h.setPixel hrow hcol p
      rw [← mode_setPixel fb p.row p.col p.bit] at hrow hcol
      exact ih hnext hrow hcol

theorem mode_apply_of_isExclusiveOr (fb : FrameBuffer) {edit : Edit}
    (hedit : edit.isExclusiveOr = true) : (fb.apply edit).mode = fb.mode := by
  cases edit with
  | setPixel row col bit => exact mode_setPixel fb row col bit
  | drawSprite x y rowWidth pixels =>
      rw [apply, drawSprite]
      split
      · rfl
      · exact mode_drawPlaced fb _
  | _ => cases hedit

theorem decayDelay_apply_of_isExclusiveOr (fb : FrameBuffer) {edit : Edit}
    (hedit : edit.isExclusiveOr = true) : (fb.apply edit).decayDelay = fb.decayDelay := by
  cases edit with
  | setPixel row col bit => exact (sameOptions_setPixel fb row col bit).decayDelay
  | drawSprite x y rowWidth pixels =>
      exact (sameOptions_drawSprite fb x y rowWidth pixels).decayDelay
  | _ => cases hedit

/-- Edits that draw in exclusive-or mode keep a cell lit or freshly switched off. -/
theorem LitOrFresh.apply (h : fb.LitOrFresh row col) (hrow : row < fb.mode.height)
    (hcol : col < fb.mode.width) {edit : Edit} (hedit : edit.isExclusiveOr = true) :
    (fb.apply edit).LitOrFresh row col := by
  cases edit with
  | setPixel row' col' bit => exact h.setPixel hrow hcol ⟨row', col', bit⟩
  | drawSprite x y rowWidth pixels =>
      rw [FrameBuffer.apply, drawSprite]
      split
      · exact h
      · exact h.drawPlaced hrow hcol _
  | _ => cases hedit

/-- A cell in these two states whose pixel is dark has its whole countdown left. -/
theorem LitOrFresh.cell_of_dark (h : fb.LitOrFresh row col) (hdark : fb.pixel? row col = some 0) :
    fb.cells[fb.mode.index row col]? = some (Cell.fresh fb.decayDelay) := by
  rcases h.cell with hlit | hfresh
  · rw [pixel?_of_cell hlit] at hdark
    cases hdark
  · exact hfresh

/-! ## What is rendered -/

/-- A cell that was just switched off is rendered for as many updates as the delay says, and no
longer. -/
theorem rendered_fresh {delay : UInt32} (hdelay : 1 ≤ delay) (n : Nat) :
    (((Cell.fresh delay).afterUpdates n).render == 1) = decide (n < delay.toNat) := by
  have hcoherent := Cell.coherent_extinguish true (Cell.absolute 1) true hdelay
  have hafter := hcoherent.afterUpdates_of_timer rfl n
  rw [Cell.fresh, hafter]
  by_cases hlong : n < delay.toNat
  · rw [if_pos hlong, decide_eq_true hlong]
    rfl
  · rw [if_neg hlong, decide_eq_false hlong]
    rfl

/-- A cell that was switched off a moment ago is rendered until as many updates have happened as its
countdown says. -/
theorem isRendered?_of_fresh (hrow : row < fb.mode.height) (hcol : col < fb.mode.width)
    {delay : UInt32} (hdelay : 1 ≤ delay)
    (hcell : fb.cells[fb.mode.index row col]? = some (Cell.fresh delay)) {edits : List Edit}
    (h : ∀ edit ∈ edits, edit.Spares fb.mode row col) :
    (fb.applyAll edits).isRendered? row col = some (decide (updates edits < delay.toNat)) := by
  obtain ⟨hmode, hafter⟩ := applyAll_of_spares hcol hcell h
  rw [← hmode] at hrow hafter
  rw [isRendered?_of_cell hrow hafter, rendered_fresh hdelay]

/-- A cell that is lit stays rendered. -/
theorem isRendered?_of_lit (hrow : row < fb.mode.height) (hcol : col < fb.mode.width)
    (hcell : fb.cells[fb.mode.index row col]? = some (Cell.absolute 1)) {edits : List Edit}
    (h : ∀ edit ∈ edits, edit.Spares fb.mode row col) :
    (fb.applyAll edits).isRendered? row col = some true := by
  obtain ⟨hmode, hafter⟩ := applyAll_of_spares hcol hcell h
  rw [← hmode] at hrow hafter
  rw [isRendered?_of_cell hrow hafter, Cell.afterUpdates_of_no_timer rfl]
  rfl

/-- A visible cell that is lit has no countdown. -/
theorem SatisfiesCoherent.cell_of_lit (h : fb.SatisfiesCoherent) (hrow : row < fb.mode.height)
    (hcol : col < fb.mode.width) (hlit : fb.pixel? row col = some 1) :
    fb.cells[fb.mode.index row col]? = some (Cell.absolute 1) := by
  obtain ⟨cell, hcell, hone⟩ := exists_cell_of_pixel? hlit
  have hne : cell.logical ≠ 0 := by
    rw [hone]
    decide
  rw [hcell, (h.cells.of_visible hrow hcol hcell).eq_absolute hne, hone]

/-- The beginnings of a sequence are those that end before an operation of it and those that end
after it. -/
theorem prefix_append_cons_cases {past after rest : List Edit} {on : Edit}
    (h : past <+: after ++ on :: rest) :
    past <+: after ∨ ∃ later, later <+: rest ∧ past = after ++ on :: later := by
  rcases List.prefix_or_prefix_of_prefix h (List.prefix_append after (on :: rest)) with
    hbefore | ⟨later, rfl⟩
  · exact Or.inl hbefore
  · rcases List.prefix_cons_iff.1 ((List.prefix_append_right_inj after).1 h) with
      rfl | ⟨later', rfl, hlater⟩
    · rw [List.append_nil]
      exact Or.inl (List.prefix_refl after)
    · exact Or.inr ⟨later', hlater, rfl⟩

/-- What an exclusive-or leaves of a visible cell that it switches off. -/
theorem SatisfiesCoherent.cell_of_switched_off (h : fb.SatisfiesCoherent)
    (hflicker : fb.reduceFlicker = true) (hrow : row < fb.mode.height)
    (hcol : col < fb.mode.width) {off : Edit} (hoff : off.isExclusiveOr = true)
    (hlit : fb.pixel? row col = some 1) (hdark : (fb.apply off).pixel? row col = some 0) :
    (fb.apply off).cells[(fb.apply off).mode.index row col]? =
      some (Cell.fresh fb.decayDelay) := by
  have hbefore : fb.LitOrFresh row col := ⟨hflicker, Or.inl (h.cell_of_lit hrow hcol hlit)⟩
  have hafter := (hbefore.apply hrow hcol hoff).cell_of_dark hdark
  rw [decayDelay_apply_of_isExclusiveOr fb hoff] at hafter
  exact hafter

/-- A cell that was switched off a moment ago and is switched on again before its countdown is over
is rendered throughout, and forgets the countdown. -/
theorem SatisfiesCoherent.rendered_throughout (h : fb.SatisfiesCoherent)
    (hrow : row < fb.mode.height) (hcol : col < fb.mode.width) {delay : UInt32}
    (hdelay : 1 ≤ delay)
    (hcell : fb.cells[fb.mode.index row col]? = some (Cell.fresh delay)) {after rest : List Edit}
    {on : Edit} (hafter : ∀ edit ∈ after, edit.Spares fb.mode row col)
    (hearly : updates after < delay.toNat) (hon : on.isExclusiveOr = true)
    (hagain : ((fb.applyAll after).apply on).pixel? row col = some 1)
    (hrest : ∀ edit ∈ rest, edit.Spares fb.mode row col) :
    ((fb.applyAll after).apply on).cells[fb.mode.index row col]? = some (Cell.absolute 1) ∧
      ∀ past, past <+: after ++ on :: rest →
        (fb.applyAll past).isRendered? row col = some true := by
  have hrelit : ((fb.applyAll after).apply on).SatisfiesCoherent :=
    (h.applyAll after).applyAll [on]
  have hmode : ((fb.applyAll after).apply on).mode = fb.mode := by
    rw [mode_apply_of_isExclusiveOr _ hon]
    exact (applyAll_of_spares hcol hcell hafter).1
  have hglow : ∀ past, past <+: after → (fb.applyAll past).isRendered? row col = some true := by
    intro past hpast
    have hspared : ∀ edit ∈ past, edit.Spares fb.mode row col :=
      fun edit hedit => hafter edit (hpast.subset hedit)
    have hfew := Nat.lt_of_le_of_lt (updates_le_updates hpast) hearly
    rw [isRendered?_of_fresh hrow hcol hdelay hcell hspared, decide_eq_true hfew]
  rw [← hmode] at hrow hcol hrest ⊢
  have hlit := hrelit.cell_of_lit hrow hcol hagain
  refine ⟨hlit, ?_⟩
  intro past hpast
  rcases prefix_append_cons_cases hpast with hbefore | ⟨later, hlater, rfl⟩
  · exact hglow past hbefore
  · have hspared : ∀ edit ∈ later,
        edit.Spares ((fb.applyAll after).apply on).mode row col :=
      fun edit hedit => hrest edit (hlater.subset hedit)
    have hrun : fb.applyAll (after ++ on :: later) =
        ((fb.applyAll after).apply on).applyAll later :=
      List.foldl_append
    rw [hrun]
    exact isRendered?_of_lit hrow hcol hlit hspared

/-- In every frame buffer that can be reached, with flicker reduced, a visible pixel that an
exclusive-or switches off is rendered until as many updates have happened as the delay was at that
moment, and no longer, whatever operations that spare it come in between. Switched on again before,
it is rendered at every moment from the start, and nothing counts down in it any more. -/
theorem afterglow_exact (before : List Edit) (off : Edit)
    (hflicker : (new.applyAll before).reduceFlicker = true)
    (hrow : row < (new.applyAll before).mode.height)
    (hcol : col < (new.applyAll before).mode.width) (hoff : off.isExclusiveOr = true)
    (hlit : (new.applyAll before).pixel? row col = some 1)
    (hdark : ((new.applyAll before).apply off).pixel? row col = some 0) :
    let mode := (new.applyAll before).mode
    let delay := (new.applyAll before).decayDelay.toNat
    let dark := (new.applyAll before).apply off
    (∀ after, (∀ edit ∈ after, edit.Spares mode row col) →
      (dark.applyAll after).isRendered? row col = some (decide (updates after < delay))) ∧
      ∀ after on rest, (∀ edit ∈ after, edit.Spares mode row col) → updates after < delay →
        on.isExclusiveOr = true → ((dark.applyAll after).apply on).pixel? row col = some 1 →
        (∀ edit ∈ rest, edit.Spares mode row col) →
        ((dark.applyAll after).apply on).cells[mode.index row col]? = some (Cell.absolute 1) ∧
          ∀ past, past <+: after ++ on :: rest →
            (dark.applyAll past).isRendered? row col = some true := by
  intro mode delay dark
  have hreached : (new.applyAll before).SatisfiesCoherent := satisfiesCoherent_new.applyAll before
  have hdelay := hreached.options
  have hmode : dark.mode = mode := mode_apply_of_isExclusiveOr _ hoff
  have hfresh := hreached.cell_of_switched_off hflicker hrow hcol hoff hlit hdark
  have hcoherent : dark.SatisfiesCoherent := hreached.applyAll [off]
  have hrow' : row < dark.mode.height := hmode ▸ hrow
  have hcol' : col < dark.mode.width := hmode ▸ hcol
  rw [← hmode]
  constructor
  · intro after hafter
    exact isRendered?_of_fresh hrow' hcol' hdelay hfresh hafter
  · intro after on rest hafter hearly hon hagain hrest
    exact hcoherent.rendered_throughout hrow' hcol' hdelay hfresh hafter hearly hon hagain hrest

/-- A pixel switched off while the delay is three. It is rendered for two updates although the delay
is one by then, and no longer after the third, unless it was switched on again. -/
theorem afterglow_exact_switched_on :
    let before : List Edit := [.setDecayDelay 3, .setPixel 1 1 1]
    let dark := (new.applyAll before).apply (.setPixel 1 1 1)
    let after : List Edit := [.updateDecay, .setDecayDelay 1, .setPixel 1 2 1, .updateDecay]
    dark.pixel? 1 1 = some 0 ∧ (dark.applyAll after).isRendered? 1 1 = some true ∧
      (dark.applyAll (after ++ [.updateDecay])).isRendered? 1 1 = some false ∧
      (dark.applyAll (after ++ [.setPixel 1 1 1, .updateDecay])).isRendered? 1 1 = some true := by
  intro before dark after
  have hspared : ∀ edit ∈ after ++ [.updateDecay], edit.Spares .standard 1 1 := by
    intro edit hedit
    simp only [after, List.cons_append, List.nil_append, List.mem_cons, List.not_mem_nil,
      or_false] at hedit
    rcases hedit with rfl | rfl | rfl | rfl | rfl
    · exact True.intro
    · exact True.intro
    -- the neighbour
    · rintro ⟨-, -, hcol⟩
      exact absurd hcol (by decide)
    · exact True.intro
    · exact True.intro
  have hafter : ∀ edit ∈ after, edit.Spares .standard 1 1 :=
    fun edit hedit => hspared edit (List.mem_append_left _ hedit)
  have hrest : ∀ edit ∈ [Edit.updateDecay], edit.Spares .standard 1 1 :=
    fun edit hedit => hspared edit (List.mem_append_right _ hedit)
  -- the frame buffer in which the pixel is lit
  obtain ⟨lit, hrun⟩ : ∃ lit, new.applyAll before = lit := ⟨_, rfl⟩
  have hset : ((new.setDecayDelay 3).setPixel 1 1 1).2 = lit := hrun
  have hmode : lit.mode = .standard := by
    rw [← hset, mode_setPixel]
    rfl
  have hoptions : lit.SameOptions (new.setDecayDelay 3) := by
    rw [← hset]
    exact sameOptions_setPixel _ 1 1 1
  have hflicker : lit.reduceFlicker = true := hoptions.reduceFlicker
  have hdelay : lit.decayDelay.toNat = 3 := by
    rw [hoptions.decayDelay]
    rfl
  have hrow : 1 < lit.mode.height := by
    rw [hmode]
    decide
  have hcol : 1 < lit.mode.width := by
    rw [hmode]
    decide
  have hlit : lit.pixel? 1 1 = some 1 := by
    have hblank : (new.setDecayDelay 3).pixel? 1 1 = some 0 :=
      pixel?_of_cell (getElem?_new ⟨by decide, by decide⟩)
    rw [← hset]
    exact pixel?_setPixel_self (by decide) (by decide) hblank
  have hdark : (lit.apply (.setPixel 1 1 1)).pixel? 1 1 = some 0 :=
    pixel?_setPixel_self (by decide) hcol hlit
  have hagain : (((lit.apply (.setPixel 1 1 1)).applyAll after).apply
      (.setPixel 1 1 1)).pixel? 1 1 = some 1 := by
    have hsame : (lit.apply (.setPixel 1 1 1)).mode = lit.mode := mode_setPixel lit 1 1 1
    rw [← hmode, ← hsame] at hafter
    rw [← hsame] at hcol
    obtain ⟨cell, hcell, -⟩ := exists_cell_of_pixel? hdark
    have hstill := pixel?_applyAll_of_spares hcol hdark hafter
    rw [← (applyAll_of_spares hcol hcell hafter).1] at hcol
    exact pixel?_setPixel_self (by decide) hcol hstill
  rw [← hrun] at hflicker hrow hcol hlit hdark hmode hdelay
  obtain ⟨hglow, hrelit⟩ :=
    afterglow_exact before (.setPixel 1 1 1) hflicker hrow hcol rfl hlit hdark
  rw [hmode, hdelay] at hglow hrelit
  rw [← hrun] at hagain
  refine ⟨hdark, hglow after hafter, hglow _ hspared, ?_⟩
  exact (hrelit after (.setPixel 1 1 1) [.updateDecay] hafter (by decide) rfl hagain hrest).2 _
    (List.prefix_refl _)

end FrameBuffer

end Schip
