import Schip.Proofs.Guarded.Screen

/-!
# Guarded scrolling

The three scrolls as loops that move one pixel at a time within the grid. Each loop reads cells that
it has not written yet: downwards and to the right it starts at the far end, to the left at the near
one. The invariant of a loop is the grid in the middle of the sweep (`FrameBuffer.swept`), and the
results are `scrollDown?_of`, `scrollLeft?_of` and `scrollRight?_of`.
-/

set_option autoImplicit false

namespace Schip.Guarded.Screen

open FrameBuffer (wordLimit)

/-- Pixel at an index moved down by `shift` cells. -/
def moveDown? (shift i : Nat) (s : Screen) : Option Screen := do
  let target ← word? (i + shift)
  let pixel ← s.data[i]?
  s.setAbsolute? target pixel

/-- Scroll down by `lines` rows. -/
def scrollDown? (s : Screen) (lines : Nat) : Option Screen := do
  let cells ← word? (s.width * lines)
  let shift := min cells s.data.size
  let count ← sub? s.data.size shift
  let moved ← descending? (moveDown? shift) count s
  ascending? (fun i s => s.setAbsolute? i 0) shift moved

/-- Pixel moved to column `k` of a row from the column on its right. -/
def moveLeft? (start k : Nat) (s : Screen) : Option Screen := do
  let target ← word? (start + k)
  let source ← word? (target + 1)
  let pixel ← s.data[source]?
  s.setAbsolute? target pixel

/-- One row one column to the left. -/
def leftRow? (row : Nat) (s : Screen) : Option Screen := do
  let start ← word? (row * s.width)
  let count ← sub? s.width 1
  let moved ← ascending? (moveLeft? start) count s
  let stop ← word? (start + s.width)
  let last ← sub? stop 1
  moved.setAbsolute? last 0

/-- Pixel moved to column `j + 1` of a row from the column on its left. -/
def moveRight? (start j : Nat) (s : Screen) : Option Screen := do
  let target ← word? (start + (j + 1))
  let source ← sub? target 1
  let pixel ← s.data[source]?
  s.setAbsolute? target pixel

/-- One row one column to the right. The loop runs over the columns from the last down to the
second; a row without a second column has none to run over. -/
def rightRow? (row : Nat) (s : Screen) : Option Screen := do
  let start ← word? (row * s.width)
  let moved ← descending? (moveRight? start) (s.width - 1) s
  moved.setAbsolute? start 0

/-- A move of one row made in every visible row. -/
def column? (moveRow? : Nat → Screen → Option Screen) (s : Screen) : Option Screen :=
  ascending? moveRow? s.height s

/-- Scroll to the left. -/
def scrollLeft? (s : Screen) : Option Screen :=
  ascending? (fun _ => column? leftRow?) FrameBuffer.sidewaysColumns s

/-- Scroll to the right. -/
def scrollRight? (s : Screen) : Option Screen :=
  ascending? (fun _ => column? rightRow?) FrameBuffer.sidewaysColumns s

variable {fb : FrameBuffer} {f : Nat → Cell → Cell} {done done' : Nat → Bool} {index : Nat}

/-! ## One pixel of a sweep -/

/-- A cell that is not done holds the pixel that it held before the sweep. -/
theorem data_swept (hindex : index < fb.cells.size) (hdone : done index = false) :
    (of (fb.swept f done)).data[index]? = some (fb.logicalAt index) := by
  rw [getElem?_data_of, FrameBuffer.getElem?_swept_of_not_done hdone, FrameBuffer.logicalAt,
    Array.getElem?_eq_getElem hindex]
  rfl

/-- One more cell of a sweep is done. -/
theorem setAbsolute?_swept {value : UInt8}
    (hvalue : ∀ cell, Cell.absolute value = f index cell)
    (hdone : ∀ i, i < fb.cells.size → done' i = (done i || i == index)) :
    (of (fb.swept f done)).setAbsolute? index value = some (of (fb.swept f done')) := by
  rw [setAbsolute?_of, FrameBuffer.setAbsolute_eq_setCell,
    FrameBuffer.setCell_swept (fun cell _ => hvalue cell) hdone]

/-- The hidden row comes on top of the visible cells. -/
theorem totalCells_eq (mode : Mode) : mode.totalCells = mode.visibleCells + mode.width :=
  Nat.mul_succ _ _

theorem totalCells_lt_wordLimit (mode : Mode) : mode.totalCells < wordLimit := by
  cases mode <;> decide

/-- As many rows as a byte says have less than a machine word of cells. -/
theorem width_mul_lt_wordLimit (mode : Mode) (n : UInt8) : mode.width * n.toNat < wordLimit := by
  have hcells : mode.width * n.toNat ≤ 128 * 255 :=
    Nat.mul_le_mul (by cases mode <;> decide) (Nat.le_of_lt_succ n.toNat_lt)
  exact Nat.lt_of_le_of_lt hcells (by decide)

/-- A visible row ends inside the visible cells. -/
theorem row_end_le {mode : Mode} {row : Nat} (hrow : row < mode.height) :
    row * mode.width + mode.width ≤ mode.visibleCells := by
  rw [← Nat.succ_mul, Mode.visibleCells, Nat.mul_comm mode.width]
  exact Nat.mul_le_mul_right _ hrow

/-! ## Down -/

/-- Cell of the grid after a scroll down by `shift` cells. -/
def lowered (fb : FrameBuffer) (shift i : Nat) (_ : Cell) : Cell :=
  if i < shift then Cell.absolute 0 else Cell.absolute (fb.logicalAt (i - shift))

/-- One pass of the loop that moves pixels down: the cells from `i + 1 + shift` on are done, then
the one before them as well. -/
theorem moveDown?_of {shift i : Nat} (hi : i + shift < fb.cells.size)
    (hsize : fb.cells.size < wordLimit) :
    moveDown? shift i (of (fb.swept (lowered fb shift) (fun j => i + 1 + shift ≤ j))) =
      some (of (fb.swept (lowered fb shift) (fun j => i + shift ≤ j))) := by
  have hpixel : (of (fb.swept (lowered fb shift) (fun j => i + 1 + shift ≤ j))).data[i]? =
      some (fb.logicalAt i) :=
    data_swept (Nat.lt_of_le_of_lt (Nat.le_add_right i shift) hi) (decide_eq_false (by omega))
  rw [moveDown?]
  simp only [word?_eq (Nat.lt_trans hi hsize), hpixel, Option.bind_eq_bind, Option.bind_some]
  apply setAbsolute?_swept
  · intro cell
    rw [lowered, if_neg (by omega), Nat.add_sub_cancel]
  · intro j _
    exact FrameBuffer.decide_eq_or_beq (by omega)

/-- One pass of the loop that blanks the rows at the top. -/
theorem blankTop?_of {shift i : Nat} (hi : i < shift) :
    (of (fb.swept (lowered fb shift) (fun j => j < i ∨ shift ≤ j))).setAbsolute? i 0 =
      some (of (fb.swept (lowered fb shift) (fun j => j < i + 1 ∨ shift ≤ j))) := by
  apply setAbsolute?_swept
  · intro cell
    rw [lowered, if_pos hi]
  · intro j _
    exact FrameBuffer.decide_eq_or_beq (by omega)

/-- A scroll down by a number of cells that is a word cannot abort. -/
theorem scrollDown?_of (h : fb.WellFormed) {lines : Nat}
    (hlines : fb.mode.width * lines < wordLimit) :
    (of fb).scrollDown? lines = some (of (fb.scrollDown lines)) := by
  have hsize : fb.cells.size < wordLimit := h ▸ totalCells_lt_wordLimit fb.mode
  have hshift : fb.downShift lines ≤ fb.cells.size := Nat.min_le_right _ _
  have hcells : word? ((of fb).width * lines) = some (fb.mode.width * lines) := word?_eq hlines
  have hmin : min (fb.mode.width * lines) (of fb).data.size = fb.downShift lines := by
    rw [size_data_of]
    rfl
  generalize hgen : fb.downShift lines = shift at hshift hmin
  have hcount : sub? (of fb).data.size shift = some (fb.cells.size - shift) := by
    rw [size_data_of]
    exact sub?_eq hshift
  -- the rows move from the bottom up, so no pixel is overwritten before it is read
  have hmoved := descending?_eq (n := fb.cells.size - shift)
    (fun i => of (fb.swept (lowered fb shift) (fun j => i + shift ≤ j)))
    fun i hi => moveDown?_of (by omega) hsize
  -- then the rows at the top are blanked, in any order
  have hblank : ascending? (fun i s => s.setAbsolute? i 0) shift
      (of (fb.swept (lowered fb shift) (fun j => j < 0 ∨ shift ≤ j))) =
        some (of (fb.swept (lowered fb shift) (fun j => j < shift ∨ shift ≤ j))) :=
    ascending?_eq (fun i => of (fb.swept (lowered fb shift) (fun j => j < i ∨ shift ≤ j)))
      fun i hi => blankTop?_of hi
  have hstart : fb.swept (lowered fb shift) (fun j => fb.cells.size - shift + shift ≤ j) = fb :=
    FrameBuffer.swept_none fun i hi => decide_eq_false (by omega)
  have hmiddle : fb.swept (lowered fb shift) (fun j => 0 + shift ≤ j) =
      fb.swept (lowered fb shift) (fun j => j < 0 ∨ shift ≤ j) :=
    FrameBuffer.swept_congr fun i _ => by simp
  have hend : fb.swept (lowered fb shift) (fun j => j < shift ∨ shift ≤ j) =
      fb.scrollDown lines := by
    refine (FrameBuffer.swept_all fun i _ _ hdone => ?_).trans ?_
    · exact absurd (Nat.lt_or_ge i shift) (of_decide_eq_false hdone)
    · rw [FrameBuffer.scrollDown, hgen]
      rfl
  rw [hstart, hmiddle] at hmoved
  rw [scrollDown?]
  simp only [hcells, hmin, hcount, hmoved, Option.bind_eq_bind, Option.bind_some]
  rw [hblank, hend]

/-! ## Sideways -/

theorem mod_width {mode : Mode} (row : Nat) {k : Nat} (hk : k < mode.width) :
    (row * mode.width + k) % mode.width = k := by
  rw [Nat.mul_comm, Nat.mul_add_mod, Nat.mod_eq_of_lt hk]

/-- Cell of the grid after a scroll by one column to the left. -/
def leftward (fb : FrameBuffer) (i : Nat) (cell : Cell) : Cell :=
  if fb.mode.visibleCells ≤ i then cell
  else if i % fb.mode.width + 1 < fb.mode.width then Cell.absolute (fb.logicalAt (i + 1))
  else Cell.absolute 0

/-- Cell of the grid after a scroll by one column to the right. -/
def rightward (fb : FrameBuffer) (i : Nat) (cell : Cell) : Cell :=
  if fb.mode.visibleCells ≤ i then cell
  else if 0 < i % fb.mode.width then Cell.absolute (fb.logicalAt (i - 1))
  else Cell.absolute 0

/-- What the loops rely on about a row of a grid of the right size: it lies in the visible cells,
and its indices are machine words. -/
structure RowFits (fb : FrameBuffer) (row : Nat) : Prop where
  visible : row * fb.mode.width + fb.mode.width ≤ fb.mode.visibleCells
  stored : fb.mode.visibleCells + fb.mode.width = fb.cells.size
  words : fb.cells.size < wordLimit
  pos : 0 < fb.mode.width

/-- The visible rows of a well-formed grid can be swept. -/
theorem rowFits (h : fb.WellFormed) {row : Nat} (hrow : row < fb.mode.height) :
    RowFits fb row where
  visible := row_end_le hrow
  stored := by rw [h, totalCells_eq]
  words := h ▸ totalCells_lt_wordLimit fb.mode
  pos := width_pos fb.mode

variable {row : Nat}

/-- One step of the loop that moves a row to the left. -/
theorem moveLeft?_of (hrow : RowFits fb row) {k : Nat} (hk : k + 1 < fb.mode.width) :
    moveLeft? (row * fb.mode.width) k
        (of (fb.swept (leftward fb) (fun i => i < row * fb.mode.width + k))) =
      some (of (fb.swept (leftward fb) (fun i => i < row * fb.mode.width + (k + 1)))) := by
  obtain ⟨hvisible, hstored, hwords, -⟩ := hrow
  have hpixel : (of (fb.swept (leftward fb)
      (fun i => i < row * fb.mode.width + k))).data[row * fb.mode.width + k + 1]? =
        some (fb.logicalAt (row * fb.mode.width + k + 1)) :=
    data_swept (by omega) (decide_eq_false (by omega))
  have htarget : word? (row * fb.mode.width + k) = some (row * fb.mode.width + k) :=
    word?_eq (by omega)
  have hsource : word? (row * fb.mode.width + k + 1) = some (row * fb.mode.width + k + 1) :=
    word?_eq (by omega)
  rw [moveLeft?]
  simp only [htarget, hsource, hpixel, Option.bind_eq_bind, Option.bind_some]
  apply setAbsolute?_swept
  · intro cell
    rw [leftward, if_neg (by omega), mod_width row (by omega), if_pos hk]
  · intro i _
    exact FrameBuffer.decide_eq_or_beq (by omega)

/-- The rows up to `row` are done after the pass for that row. -/
theorem leftRow?_of (hrow : RowFits fb row) :
    leftRow? row (of (fb.swept (leftward fb) (fun i => i < row * fb.mode.width))) =
      some (of (fb.swept (leftward fb) (fun i => i < (row + 1) * fb.mode.width))) := by
  -- all columns but the last take the pixel of their neighbour
  have hmoved := ascending?_eq (n := fb.mode.width - 1)
    (fun k => of (fb.swept (leftward fb) (fun i => i < row * fb.mode.width + k)))
    fun k hk => moveLeft?_of hrow (by omega)
  obtain ⟨hvisible, hstored, hwords, hpos⟩ := hrow
  have hstart : word? (row * fb.mode.width) = some (row * fb.mode.width) := word?_eq (by omega)
  have hcount : sub? fb.mode.width 1 = some (fb.mode.width - 1) := sub?_eq hpos
  have hstop : word? (row * fb.mode.width + fb.mode.width) =
      some (row * fb.mode.width + fb.mode.width) := word?_eq (by omega)
  have hlast : sub? (row * fb.mode.width + fb.mode.width) 1 =
      some (row * fb.mode.width + (fb.mode.width - 1)) := by
    rw [sub?_eq (by omega), Nat.add_sub_assoc hpos]
  have hwidth : (of (fb.swept (leftward fb)
      (fun i => i < row * fb.mode.width))).width = fb.mode.width := rfl
  rw [leftRow?]
  simp only [hwidth, hstart, hcount, hstop, hlast, Option.bind_eq_bind, Option.bind_some]
  rw [Nat.add_zero] at hmoved
  rw [hmoved, Option.bind_some]
  -- the last column is blanked, and with it the row is done
  apply setAbsolute?_swept
  · intro cell
    rw [leftward, if_neg (by omega), mod_width row (by omega), if_neg (by omega)]
  · intro i _
    rw [Nat.succ_mul]
    exact FrameBuffer.decide_eq_or_beq (by omega)

/-- The grid in the middle of a row that moves to the right: the rows before it are done, and of
the row itself the columns after `j`. -/
def rightDone (fb : FrameBuffer) (row j i : Nat) : Bool :=
  i < row * fb.mode.width ∨
    (row * fb.mode.width + j < i ∧ i < row * fb.mode.width + fb.mode.width)

/-- One step of the loop that moves a row to the right. -/
theorem moveRight?_of (hrow : RowFits fb row) {j : Nat} (hj : j + 1 < fb.mode.width) :
    moveRight? (row * fb.mode.width) j
        (of (fb.swept (rightward fb) (rightDone fb row (j + 1)))) =
      some (of (fb.swept (rightward fb) (rightDone fb row j))) := by
  obtain ⟨hvisible, hstored, hwords, -⟩ := hrow
  have hpixel : (of (fb.swept (rightward fb)
      (rightDone fb row (j + 1)))).data[row * fb.mode.width + j]? =
        some (fb.logicalAt (row * fb.mode.width + j)) :=
    data_swept (by omega) (decide_eq_false (by omega))
  have htarget : word? (row * fb.mode.width + (j + 1)) = some (row * fb.mode.width + (j + 1)) :=
    word?_eq (by omega)
  have hsource : sub? (row * fb.mode.width + (j + 1)) 1 = some (row * fb.mode.width + j) :=
    sub?_eq (by omega)
  rw [moveRight?]
  simp only [htarget, hsource, hpixel, Option.bind_eq_bind, Option.bind_some]
  apply setAbsolute?_swept
  · intro cell
    rw [rightward, if_neg (by omega), mod_width row hj, if_pos (Nat.succ_pos j)]
    rfl
  · intro i _
    exact FrameBuffer.decide_eq_or_beq (by omega)

/-- The rows up to `row` are done after the pass for that row. -/
theorem rightRow?_of (hrow : RowFits fb row) :
    rightRow? row (of (fb.swept (rightward fb) (fun i => i < row * fb.mode.width))) =
      some (of (fb.swept (rightward fb) (fun i => i < (row + 1) * fb.mode.width))) := by
  have hmoved := descending?_eq (n := fb.mode.width - 1)
    (fun j => of (fb.swept (rightward fb) (rightDone fb row j)))
    fun j hj => moveRight?_of hrow (by omega)
  obtain ⟨hvisible, hstored, hwords, hpos⟩ := hrow
  have hstart : word? (row * fb.mode.width) = some (row * fb.mode.width) := word?_eq (by omega)
  have hbefore : fb.swept (rightward fb) (rightDone fb row (fb.mode.width - 1)) =
      fb.swept (rightward fb) (fun i => i < row * fb.mode.width) := by
    apply FrameBuffer.swept_congr
    intro i _
    -- no column comes after the last one
    exact decide_eq_decide.2 (by omega)
  have hwidth : (of (fb.swept (rightward fb)
      (fun i => i < row * fb.mode.width))).width = fb.mode.width := rfl
  rw [hbefore] at hmoved
  rw [rightRow?]
  simp only [hwidth, hstart, hmoved, Option.bind_eq_bind, Option.bind_some]
  apply setAbsolute?_swept
  · intro cell
    have hmod := mod_width row hpos
    rw [Nat.add_zero] at hmod
    rw [rightward, if_neg (by omega), hmod, if_neg (Nat.lt_irrefl 0)]
  -- the first column is the last one of the row to be done
  · intro i _
    rw [Nat.succ_mul]
    exact FrameBuffer.decide_eq_or_beq (by omega)

/-- A column moves if every row does. The rewriting has to leave the hidden row alone, which the
loop over the visible rows never reaches. -/
theorem column?_of {moveRow? : Nat → Screen → Option Screen}
    (hf : ∀ i cell, fb.mode.visibleCells ≤ i → f i cell = cell)
    (hrow : ∀ row, row < fb.mode.height →
      moveRow? row (of (fb.swept f (fun i => i < row * fb.mode.width))) =
        some (of (fb.swept f (fun i => i < (row + 1) * fb.mode.width)))) :
    column? moveRow? (of fb) = some (of { fb with cells := fb.cells.mapIdx f }) := by
  have hrows := ascending?_eq (fun row => of (fb.swept f (fun i => i < row * fb.mode.width))) hrow
  have hstart : fb.swept f (fun i => i < 0 * fb.mode.width) = fb :=
    FrameBuffer.swept_none fun i _ => decide_eq_false (by omega)
  have hend : fb.swept f (fun i => i < fb.mode.height * fb.mode.width) =
      { fb with cells := fb.cells.mapIdx f } := by
    refine FrameBuffer.swept_all fun i cell _ hdone => hf i cell ?_
    rw [Mode.visibleCells, Nat.mul_comm]
    exact Nat.le_of_not_lt (of_decide_eq_false hdone)
  rw [hstart, hend] at hrows
  exact hrows

/-- The loop over the rows moves the grid to the left by one column. -/
theorem leftColumn?_of (h : fb.WellFormed) :
    column? leftRow? (of fb) = some (of fb.leftColumn) :=
  column?_of (fun _ _ hhidden => if_pos hhidden) fun _ hrow => leftRow?_of (rowFits h hrow)

/-- The loop over the rows moves the grid to the right by one column. -/
theorem rightColumn?_of (h : fb.WellFormed) :
    column? rightRow? (of fb) = some (of fb.rightColumn) :=
  column?_of (fun _ _ hhidden => if_pos hhidden) fun _ hrow => rightRow?_of (rowFits h hrow)

/-- What cannot abort on a well-formed grid cannot abort when it is repeated. -/
theorem repeated?_of {edit? : Screen → Option Screen} {edit : FrameBuffer → FrameBuffer}
    (hsize : ∀ fb : FrameBuffer, fb.WellFormed → (edit fb).WellFormed)
    (hedit : ∀ fb : FrameBuffer, fb.WellFormed → edit? (of fb) = some (of (edit fb)))
    (h : fb.WellFormed) (n : Nat) :
    ascending? (fun _ => edit?) n (of fb) = some (of (FrameBuffer.repeated edit n fb)) := by
  refine ascending?_eq (fun i => of (FrameBuffer.repeated edit i fb)) fun i _ => ?_
  have hi : (FrameBuffer.repeated edit i fb).WellFormed :=
    FrameBuffer.repeated_preserves FrameBuffer.WellFormed edit hsize i fb h
  rw [hedit _ hi, FrameBuffer.repeated_succ]

theorem scrollLeft?_of (h : fb.WellFormed) : (of fb).scrollLeft? = some (of fb.scrollLeft) :=
  repeated?_of (fun _ hfb => by simpa [FrameBuffer.WellFormed, FrameBuffer.leftColumn] using hfb)
    (fun _ => leftColumn?_of) h _

-- The guards are not idle: a row without columns has no last one.
example : { of .new with width := 0 }.scrollLeft? = none := rfl

theorem scrollRight?_of (h : fb.WellFormed) : (of fb).scrollRight? = some (of fb.scrollRight) :=
  repeated?_of (fun _ hfb => by simpa [FrameBuffer.WellFormed, FrameBuffer.rightColumn] using hfb)
    (fun _ => rightColumn?_of) h _

end Schip.Guarded.Screen
