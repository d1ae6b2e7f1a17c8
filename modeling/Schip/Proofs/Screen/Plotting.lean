import Schip.Plot
import Schip.Proofs.Screen.Coherence
import Schip.Proofs.Screen.Place

/-!
# What is plotted is what is meant

The plot of a frame looks at rendered pixels and countdowns only, never at the logical pixels. Yet
its lit points are the visible cells that are logically lit, and its fading points those that are
logically dark and still shown (`plot_exact`): the fields of a cell do not contradict each other in
any frame buffer that can be reached.

`mem_pointsWhere` and `pairwise_pointsWhere` say which points are listed and in which order, and
hold of every frame buffer. `Cell.shown_without_countdown_iff` and `Cell.shown_with_countdown_iff`
are where coherence comes in; for the second one a dark cell has to be shown by a one, which is an
invariant of its own (`Cell.ShownAsBit`).
-/

set_option autoImplicit false

namespace Schip

/-- A visible cell that is dark is shown by a zero or a one. -/
def Cell.ShownAsBit (visible : Bool) (cell : Cell) : Prop :=
  visible = true → cell.logical = 0 → cell.render = 0 ∨ cell.render = 1

/-- Row by row from the top, and from left to right within a row. -/
def RowMajor (p q : Int × Int) : Prop := q.2 < p.2 ∨ q.2 = p.2 ∧ p.1 < q.1

namespace Cell

variable {cell : Cell}

/-- An update leaves a cell rendered as a bit. -/
theorem ShownAsBit.age {visible : Bool} (hc : cell.Coherent visible)
    (hs : cell.ShownAsBit visible) : cell.age.ShownAsBit visible := by
  rcases hc.age_cases with ⟨-, heq⟩ | ⟨-, heq⟩ | ⟨t, -, -, -, heq⟩
  · rw [heq]
    exact hs
  · rw [heq]
    intro _ _
    exact Or.inl rfl
  · rw [heq]
    exact hs

/-- A visible cell is shown without a countdown exactly if it is lit. -/
theorem shown_without_countdown_iff (h : cell.Coherent true) :
    cell.render ≠ 0 ∧ cell.timer.isNone = true ↔ cell.logical ≠ 0 := by
  constructor
  · rintro ⟨hshown, hnone⟩ hdark
    exact hshown (h.dark hdark (Option.isNone_iff_eq_none.1 hnone))
  · intro hlit
    rw [h.lit rfl hlit]
    refine ⟨hlit, ?_⟩
    cases htimer : cell.timer with
    | none => rfl
    | some t => exact absurd (h.fading t htimer).2 hlit

/-- A visible cell is shown with a countdown exactly if it is dark and rendered. -/
theorem shown_with_countdown_iff (h : cell.Coherent true) (hs : cell.ShownAsBit true) :
    cell.render ≠ 0 ∧ cell.timer.isSome = true ↔ cell.logical = 0 ∧ cell.render = 1 := by
  constructor
  · rintro ⟨hshown, hsome⟩
    obtain ⟨t, htimer⟩ := Option.isSome_iff_exists.1 hsome
    have hdark := (h.fading t htimer).2
    exact ⟨hdark, (hs rfl hdark).resolve_left hshown⟩
  · rintro ⟨hdark, hrender⟩
    have hshown : cell.render ≠ 0 := by
      rw [hrender]
      decide
    refine ⟨hshown, ?_⟩
    cases htimer : cell.timer with
    | none => exact absurd (h.dark hdark htimer) hshown
    | some t => rfl

end Cell

theorem RowMajor.ne {p q : Int × Int} (h : RowMajor p q) : p ≠ q := by
  rintro rfl
  rcases h with h | ⟨-, h⟩
  · exact Int.lt_irrefl _ h
  · exact Int.lt_irrefl _ h

namespace FrameBuffer

variable {fb : FrameBuffer} {condition : Cell → Bool}

/-! ## Points of a frame -/

/-- The point of a cell has the column as its first coordinate and goes down with the row. -/
theorem point_index {row col : Nat} (hcol : col < fb.mode.width) :
    fb.point (fb.mode.index row col) = ((col : Int), -(row : Int)) := by
  rw [point, index_mod_width hcol, index_div_width hcol]
  rfl

/-- The points that are listed: those of the rendered visible cells with the condition. -/
theorem mem_pointsWhere (point : Int × Int) :
    point ∈ fb.pointsWhere condition ↔
      ∃ row col cell, row < fb.mode.height ∧ col < fb.mode.width ∧
        fb.cells[fb.mode.index row col]? = some cell ∧ cell.render ≠ 0 ∧
        condition cell = true ∧ point = ((col : Int), -(row : Int)) := by
  simp only [pointsWhere, List.mem_filterMap, Prod.exists, List.mk_mem_zipIdx_iff_getElem?,
    Array.getElem?_toList, getElem?_visible, Option.ite_none_right_eq_some, Option.some.injEq,
    Bool.and_eq_true, decide_eq_true_eq]
  constructor
  · rintro ⟨cell, i, ⟨hi, hcell⟩, ⟨hshown, hcondition⟩, rfl⟩
    have htotal : i < fb.mode.totalCells :=
      Nat.lt_of_lt_of_le hi (Nat.mul_le_mul_left _ (Nat.le_succ _))
    obtain ⟨row, col, hin, rfl⟩ := exists_place htotal
    have hrow := (index_lt_visibleCells hin.col_lt).1 hi
    exact ⟨row, col, cell, hrow, hin.col_lt, hcell, hshown, hcondition, point_index hin.col_lt⟩
  · rintro ⟨row, col, cell, hrow, hcol, hcell, hshown, hcondition, rfl⟩
    have hi := (index_lt_visibleCells hcol).2 hrow
    exact ⟨cell, fb.mode.index row col, ⟨hi, hcell⟩, ⟨hshown, hcondition⟩, point_index hcol⟩

/-- The points of cells come in the order of their indices. -/
theorem rowMajor_point {i j : Nat} (h : i < j) : RowMajor (fb.point i) (fb.point j) := by
  have hrows : i / fb.mode.width ≤ j / fb.mode.width := Nat.div_le_div_right (Nat.le_of_lt h)
  have hi := Nat.div_add_mod i fb.mode.width
  have hj := Nat.div_add_mod j fb.mode.width
  rcases Nat.lt_or_eq_of_le hrows with hrow | hrow
  · refine Or.inl ?_
    simp only [point, Int.ofNat_eq_natCast]
    omega
  -- in the same row the columns decide
  · rw [hrow] at hi
    refine Or.inr ⟨?_, ?_⟩
    · simp only [point, hrow]
    · simp only [point, Int.ofNat_eq_natCast]
      omega

/-- Points are listed row by row. -/
theorem pairwise_pointsWhere (fb : FrameBuffer) (condition : Cell → Bool) :
    (fb.pointsWhere condition).Pairwise RowMajor := by
  have hindices : fb.visible.toList.zipIdx.Pairwise fun a b => a.2 < b.2 := by
    rw [List.pairwise_iff_getElem]
    intro i j hi hj hij
    simpa using hij
  rw [pointsWhere, List.pairwise_filterMap]
  apply hindices.imp
  rintro ⟨cell, i⟩ ⟨cell', j⟩ hij p hp q hq
  simp only [Option.ite_none_right_eq_some, Option.some.injEq] at hp hq
  rw [← hp.2, ← hq.2]
  exact rowMajor_point hij

/-- No point is plotted twice. -/
theorem nodup_pointsWhere (fb : FrameBuffer) (condition : Cell → Bool) :
    (fb.pointsWhere condition).Nodup :=
  (pairwise_pointsWhere fb condition).imp RowMajor.ne

/-- Every listed point lies within the bounds of the canvas. -/
theorem bounds_pointsWhere (fb : FrameBuffer) (condition : Cell → Bool) :
    ∀ point ∈ fb.pointsWhere condition,
      (fb.resolution.xBounds.1 ≤ point.1 ∧ point.1 ≤ fb.resolution.xBounds.2) ∧
        fb.resolution.yBounds.1 ≤ point.2 ∧ point.2 ≤ fb.resolution.yBounds.2 := by
  intro point h
  obtain ⟨row, col, -, hrow, hcol, -, -, -, rfl⟩ := (mem_pointsWhere point).1 h
  have hwidth : fb.resolution.width = fb.mode.width := rfl
  have hheight : fb.resolution.height = fb.mode.height := rfl
  -- both sizes are small enough for exact bounds
  have hsmall : fb.mode.width ≤ 1 <<< 53 ∧ fb.mode.height ≤ 1 <<< 53 := by
    cases fb.mode <;> decide
  rw [Resolution.xBounds_of_le hsmall.1, Resolution.yBounds_of_le hsmall.2, hwidth, hheight]
  simp only [Int.ofNat_eq_natCast]
  omega

/-! ## Frames whose cells do not contradict themselves -/

theorem cellInvariant_shownAsBit :
    CellInvariant (fun _ delay => 1 ≤ delay)
      (fun visible cell => cell.Coherent visible ∧ cell.ShownAsBit visible) where
  blank := fun visible => ⟨Cell.coherent_absolute visible 0, fun _ => Or.inl⟩
  copy := fun _ visible' cell _ => ⟨Cell.coherent_absolute visible' cell.logical, fun _ => Or.inl⟩
  light := by
    intro visible cell _
    refine ⟨Cell.coherent_light visible cell, ?_⟩
    rintro rfl -
    exact Or.inr rfl
  extinguish := by
    intro visible cell reduceFlicker delay hdelay hlit hcell
    refine ⟨Cell.coherent_extinguish visible cell reduceFlicker hdelay, ?_⟩
    intro hvisible _
    cases reduceFlicker with
    | false => exact Or.inl rfl
    -- the cell was lit, hence shown by a one, and is shown so still
    | true =>
        have hshown := hcell.1.lit hvisible (by rw [hlit]; decide)
        exact Or.inr (hshown.trans hlit)
  age := fun _ _ h => ⟨h.1.age, h.2.age h.1⟩

/-- What the plot relies on. -/
abbrev SatisfiesShownAsBit (fb : FrameBuffer) : Prop :=
  fb.Satisfies (fun _ delay => 1 ≤ delay)
    (fun visible cell => cell.Coherent visible ∧ cell.ShownAsBit visible)

theorem satisfiesShownAsBit_applyAll (edits : List Edit) :
    (new.applyAll edits).SatisfiesShownAsBit := by
  refine Satisfies.applyAll cellInvariant_shownAsBit ?_ ?_ edits
  · intro visible value
    exact ⟨Cell.coherent_absolute visible value, fun _ => Or.inl⟩
  · exact cellInvariant_shownAsBit.setMode .standard satisfiesCoherent_new.options

theorem isRendered?_eq_some_true_iff {row col : Nat} (hrow : row < fb.mode.height) :
    fb.isRendered? row col = some true ↔
      ∃ cell, fb.cells[fb.mode.index row col]? = some cell ∧ cell.render = 1 := by
  simp [isRendered?, hrow]

/-- The points that are plotted as lit are those of the logical pixels. -/
theorem mem_lit_iff (h : fb.SatisfiesShownAsBit) (point : Int × Int) :
    point ∈ fb.plot.lit ↔ ∃ row col, row < fb.mode.height ∧ col < fb.mode.width ∧
      point = ((col : Int), -(row : Int)) ∧
      ∃ pixel, fb.pixel? row col = some pixel ∧ pixel ≠ 0 := by
  rw [plot, mem_pointsWhere]
  constructor
  · rintro ⟨row, col, cell, hrow, hcol, hcell, hshown, hnone, rfl⟩
    have hcoherent := (h.cells.of_visible hrow hcol hcell).1
    have hlogical := (Cell.shown_without_countdown_iff hcoherent).1 ⟨hshown, hnone⟩
    exact ⟨row, col, hrow, hcol, rfl, cell.logical, pixel?_of_cell hcell, hlogical⟩
  · rintro ⟨row, col, hrow, hcol, rfl, pixel, hpixel, hlogical⟩
    obtain ⟨cell, hcell, rfl⟩ := exists_cell_of_pixel? hpixel
    have hcoherent := (h.cells.of_visible hrow hcol hcell).1
    obtain ⟨hshown, hnone⟩ := (Cell.shown_without_countdown_iff hcoherent).2 hlogical
    exact ⟨row, col, cell, hrow, hcol, hcell, hshown, hnone, rfl⟩

/-- The points that are plotted as fading are those that are rendered while their pixel is off. -/
theorem mem_fading_iff (h : fb.SatisfiesShownAsBit) (point : Int × Int) :
    point ∈ fb.plot.fading ↔ ∃ row col, row < fb.mode.height ∧ col < fb.mode.width ∧
      point = ((col : Int), -(row : Int)) ∧
      fb.pixel? row col = some 0 ∧ fb.isRendered? row col = some true := by
  rw [plot, mem_pointsWhere]
  constructor
  · rintro ⟨row, col, cell, hrow, hcol, hcell, hshown, hsome, rfl⟩
    obtain ⟨hcoherent, hbit⟩ := h.cells.of_visible hrow hcol hcell
    obtain ⟨hdark, hrender⟩ := (Cell.shown_with_countdown_iff hcoherent hbit).1 ⟨hshown, hsome⟩
    have hpixel : fb.pixel? row col = some 0 := by
      rw [pixel?_of_cell hcell, hdark]
    have hrendered := (isRendered?_eq_some_true_iff hrow).2 ⟨cell, hcell, hrender⟩
    exact ⟨row, col, hrow, hcol, rfl, hpixel, hrendered⟩
  · rintro ⟨row, col, hrow, hcol, rfl, hpixel, hrendered⟩
    obtain ⟨cell, hcell, hrender⟩ := (isRendered?_eq_some_true_iff hrow).1 hrendered
    rw [pixel?_of_cell hcell] at hpixel
    have hdark := Option.some.inj hpixel
    obtain ⟨hcoherent, hbit⟩ := h.cells.of_visible hrow hcol hcell
    obtain ⟨hshown, hsome⟩ := (Cell.shown_with_countdown_iff hcoherent hbit).2 ⟨hdark, hrender⟩
    exact ⟨row, col, cell, hrow, hcol, hcell, hshown, hsome, rfl⟩

/-- In every frame buffer that can be reached the lit points of the plot are those of the visible
cells that are logically lit, and the fading points those of the visible cells that are dark and
still rendered. Each point is listed once, row by row, in one of the two lists, and lies within the
bounds of the canvas. -/
theorem plot_exact (edits : List Edit) :
    let fb := new.applyAll edits
    (∀ point, point ∈ fb.plot.lit ↔ ∃ row col, row < fb.mode.height ∧ col < fb.mode.width ∧
      point = ((col : Int), -(row : Int)) ∧
      ∃ pixel, fb.pixel? row col = some pixel ∧ pixel ≠ 0) ∧
      (∀ point, point ∈ fb.plot.fading ↔ ∃ row col, row < fb.mode.height ∧ col < fb.mode.width ∧
        point = ((col : Int), -(row : Int)) ∧
        fb.pixel? row col = some 0 ∧ fb.isRendered? row col = some true) ∧
      (fb.plot.lit.Nodup ∧ fb.plot.lit.Pairwise RowMajor) ∧
      (fb.plot.fading.Nodup ∧ fb.plot.fading.Pairwise RowMajor) ∧
      (∀ point ∈ fb.plot.lit, point ∉ fb.plot.fading) ∧
      ∀ point, point ∈ fb.plot.lit ∨ point ∈ fb.plot.fading →
        (fb.resolution.xBounds.1 ≤ point.1 ∧ point.1 ≤ fb.resolution.xBounds.2) ∧
          fb.resolution.yBounds.1 ≤ point.2 ∧ point.2 ≤ fb.resolution.yBounds.2 := by
  intro fb
  have hfb : fb.SatisfiesShownAsBit := satisfiesShownAsBit_applyAll edits
  have hordered : ∀ condition, (fb.pointsWhere condition).Nodup ∧
      (fb.pointsWhere condition).Pairwise RowMajor := fun condition =>
    ⟨nodup_pointsWhere fb condition, pairwise_pointsWhere fb condition⟩
  refine ⟨mem_lit_iff hfb, mem_fading_iff hfb, hordered fun cell => cell.timer.isNone,
    hordered fun cell => cell.timer.isSome, ?_, ?_⟩
  · intro point hlit hfading
    obtain ⟨row, col, -, hcol, rfl, pixel, hpixel, hne⟩ := (mem_lit_iff hfb point).1 hlit
    obtain ⟨row', col', -, hcol', heq, hzero, -⟩ := (mem_fading_iff hfb _).1 hfading
    -- a point has one place, which cannot be both lit and dark
    obtain ⟨rfl, rfl⟩ : row = row' ∧ col = col' := by
      rw [Prod.mk.injEq] at heq
      omega
    rw [hzero] at hpixel
    exact hne (Option.some.inj hpixel).symm
  · rintro point (hlit | hfading)
    · exact bounds_pointsWhere fb (fun cell => cell.timer.isNone) point hlit
    · exact bounds_pointsWhere fb (fun cell => cell.timer.isSome) point hfading

end FrameBuffer

end Schip
