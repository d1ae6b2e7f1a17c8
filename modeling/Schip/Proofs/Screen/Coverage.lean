import Schip.Proofs.Screen.Place
import Schip.Proofs.Screen.SameLogical
import Schip.Proofs.Screen.CellInvariant

/-!
# Sprites and the cells that they cover

A sprite is drawn pixel by pixel, and one that wraps may come to the same cell more than once. What
becomes of a cell depends only on how many lit pixels fall on it (`Sprite.count`): its logical
pixel is exclusive-ored with the parity of that number, and a cell without any keeps everything.
The sprite collides if and only if some cell is lit and covered, or covered twice.

`draws_exclusive_or` says so of every sprite on every well-formed grid of zeros and ones, and that
the order in which sprites are drawn does not matter for the logical pixels. The lemmas about placed
pixels are inductions over the list of them.
-/

set_option autoImplicit false

namespace Schip

/-- Sprite with the place where it is drawn. -/
structure Sprite where
  x : UInt8
  y : UInt8
  rowWidth : Nat
  pixels : List UInt8
  wide : 0 < rowWidth

/-- Zero for an even number, one for an odd one. -/
def parity (n : Nat) : UInt8 := UInt8.ofNat (n % 2)

/-- A placed pixel is lit and lies at a place. -/
def PlacedPixel.Covers (p : PlacedPixel) (row col : Nat) : Prop :=
  p.bit ≠ 0 ∧ p.row = row ∧ p.col = col

instance (p : PlacedPixel) (row col : Nat) : Decidable (p.Covers row col) := by
  unfold PlacedPixel.Covers
  infer_instance

/-- How many of some placed pixels are lit and lie at a place. -/
def hits (pixels : List PlacedPixel) (row col : Nat) : Nat :=
  pixels.countP fun p => p.Covers row col

namespace Sprite

/-- Pixel number `i` of a sprite is lit and falls on a cell, by its row and its column, both of
which wrap. -/
def Covers (s : Sprite) (mode : Mode) (row col i : Nat) : Prop :=
  s.pixels[i]?.getD 0 ≠ 0 ∧ (s.y.toNat + i / s.rowWidth) % (mode.height + 1) = row ∧
    (s.x.toNat + i % s.rowWidth) % mode.width = col

instance (s : Sprite) (mode : Mode) (row col i : Nat) : Decidable (s.Covers mode row col i) := by
  unfold Covers
  infer_instance

/-- How many lit pixels of a sprite fall on a cell. -/
def count (s : Sprite) (mode : Mode) (row col : Nat) : Nat :=
  (List.range s.pixels.length).countP fun i => s.Covers mode row col i

/-- Sprite drawn, and whether it collided. -/
def draw (s : Sprite) (fb : FrameBuffer) : Bool × FrameBuffer :=
  fb.drawSprite s.x.toNat s.y.toNat s.rowWidth s.pixels

/-- Pixels of a sprite at their places. -/
def placed (s : Sprite) (mode : Mode) : List PlacedPixel :=
  FrameBuffer.placeSprite mode s.x.toNat s.y.toNat s.rowWidth s.pixels

end Sprite

/-! ## Parity -/

theorem parity_add (a b : Nat) : parity (a + b) = parity a ^^^ parity b := by
  have hsum : (a + b) % 2 = (a % 2 + b % 2) % 2 := Nat.add_mod a b 2
  rw [parity, parity, parity, hsum]
  rcases Nat.mod_two_eq_zero_or_one a with ha | ha <;>
    rcases Nat.mod_two_eq_zero_or_one b with hb | hb <;> rw [ha, hb] <;> rfl

theorem parity_zero : parity 0 = 0 := rfl

/-- A bit after one pixel: switched off, or the sum of both. -/
theorem xor_parity_cases {old : UInt8} (hold : old = 0 ∨ old = 1) {n : Nat} (hn : n ≤ 1) :
    (old = 1 ∧ n = 1 ∧ old ^^^ parity n = 0) ∨ (old ^^^ parity n).toNat = old.toNat + n := by
  have hcases : n = 0 ∨ n = 1 := by omega
  rcases hold with rfl | rfl <;> rcases hcases with rfl | rfl
  · exact Or.inr rfl
  · exact Or.inr rfl
  · exact Or.inr rfl
  · exact Or.inl ⟨rfl, rfl, rfl⟩

/-- A bit and the pixels on it come to two if the bit and the first of them do, or what that one
leaves and the others. -/
theorem two_le_add_iff {old : UInt8} (hold : old = 0 ∨ old = 1) {n : Nat} (hn : n ≤ 1) (k : Nat) :
    2 ≤ old.toNat + (n + k) ↔ 2 ≤ old.toNat + n ∨ 2 ≤ (old ^^^ parity n).toNat + k := by
  rcases xor_parity_cases hold hn with ⟨rfl, rfl, -⟩ | hsum
  · have hone : (1 : UInt8).toNat = 1 := rfl
    omega
  · omega

/-! ## Lit pixels at a place -/

section Hits

variable {p : PlacedPixel} {row col : Nat}

theorem hits_nil (row col : Nat) : hits [] row col = 0 := rfl

theorem hits_append (pixels rest : List PlacedPixel) (row col : Nat) :
    hits (pixels ++ rest) row col = hits pixels row col + hits rest row col :=
  List.countP_append

theorem hits_cons (p : PlacedPixel) (rest : List PlacedPixel) (row col : Nat) :
    hits (p :: rest) row col = hits [p] row col + hits rest row col :=
  hits_append [p] rest row col

theorem hits_singleton_of_covers (h : p.Covers row col) : hits [p] row col = 1 := by
  simp [hits, h]

theorem hits_singleton_of_not_covers (h : ¬p.Covers row col) : hits [p] row col = 0 := by
  simp [hits, h]

theorem hits_singleton_le (p : PlacedPixel) (row col : Nat) : hits [p] row col ≤ 1 :=
  List.countP_le_length

end Hits

namespace FrameBuffer

/-- Every logical pixel is zero or one. -/
abbrev HasBits (fb : FrameBuffer) : Prop :=
  fb.EachCell fun _ cell => cell.logical = 0 ∨ cell.logical = 1

/-- Some cell is lit and covered by one of the pixels, or covered by two of them. -/
def Collides (fb : FrameBuffer) (count : Nat → Nat → Nat) : Prop :=
  ∃ row col old, fb.mode.Contains row col ∧ fb.pixel? row col = some old ∧
    2 ≤ old.toNat + count row col

variable {fb : FrameBuffer} {row col : Nat} {old : UInt8} {p : PlacedPixel}
  {pixels : List PlacedPixel}

theorem HasBits.pixel? (h : fb.HasBits) (hold : fb.pixel? row col = some old) :
    old = 0 ∨ old = 1 := by
  obtain ⟨cell, hcell, rfl⟩ := exists_cell_of_pixel? hold
  exact h _ cell hcell

/-- Toggling a pixel of a screen of bits leaves a bit. -/
theorem HasBits.setPixel (h : fb.HasBits) (row col : Nat) (bit : UInt8) :
    (fb.setPixel row col bit).2.HasBits := by
  rcases setPixel_cases fb row col bit with
    ⟨-, heq⟩ | ⟨cell, -, -, heq⟩ | ⟨cell, -, -, heq⟩
  · rw [heq]
    exact h
  · rw [heq]
    exact h.setCell (Or.inl rfl)
  · rw [heq]
    exact h.setCell (Or.inr rfl)

/-! ## One pixel -/

/-- A pixel that does not cover a place leaves the cell there alone. -/
theorem getElem?_setPixel_of_not_covers (hcol : col < fb.mode.width) (hnot : ¬p.Covers row col) :
    (fb.setPixel p.row p.col p.bit).2.cells[fb.mode.index row col]? =
      fb.cells[fb.mode.index row col]? := by
  have hother : ∀ {cell}, fb.Hits p.row p.col p.bit cell →
      fb.mode.index row col ≠ fb.mode.index p.row p.col := by
    intro cell hhit heq
    obtain ⟨hrow, hcol⟩ := index_injective hcol hhit.col_lt heq
    exact hnot ⟨hhit.bit_ne_zero, hrow.symm, hcol.symm⟩
  rcases setPixel_cases fb p.row p.col p.bit with
    ⟨-, heq⟩ | ⟨cell, hhit, -, heq⟩ | ⟨cell, hhit, -, heq⟩
  · rw [heq]
  · rw [heq, getElem?_setCell, if_neg (hother hhit)]
  · rw [heq, getElem?_setCell, if_neg (hother hhit)]

/-- A pixel that covers a place toggles the cell there, and collides if it was lit. -/
theorem setPixel_of_covers (hbits : fb.HasBits) (hp : fb.mode.Contains p.row p.col)
    (hcovers : p.Covers row col) (hold : fb.pixel? row col = some old) :
    ((fb.setPixel p.row p.col p.bit).1 = true ↔ old = 1) ∧
      (fb.setPixel p.row p.col p.bit).2.pixel? row col = some (old ^^^ 1) := by
  obtain ⟨hbit, rfl, rfl⟩ := hcovers
  have hnew := pixel?_setPixel_self hbit hp.col_lt hold
  obtain ⟨cell, hcell, rfl⟩ := exists_cell_of_pixel? hold
  have hhit : fb.Hits p.row p.col p.bit cell := ⟨hbit, hp.col_lt, hcell⟩
  rcases hbits _ cell hcell with hdark | hlit
  · have hne : cell.logical ≠ 1 := by
      rw [hdark]
      decide
    rw [hnew, setPixel_of_unlit hhit hne, hdark]
    exact ⟨by simp, rfl⟩
  · rw [hnew, setPixel_of_lit hhit hlit, hlit]
    exact ⟨by simp, rfl⟩

/-- Logical pixel of a place after one pixel. -/
theorem pixel?_setPixel (hbits : fb.HasBits) (hin : fb.mode.Contains row col)
    (hp : fb.mode.Contains p.row p.col) (hold : fb.pixel? row col = some old) :
    (fb.setPixel p.row p.col p.bit).2.pixel? row col =
      some (old ^^^ parity (hits [p] row col)) := by
  by_cases hcovers : p.Covers row col
  · rw [hits_singleton_of_covers hcovers]
    exact (setPixel_of_covers hbits hp hcovers hold).2
  · have hsame := getElem?_setPixel_of_not_covers hin.col_lt hcovers
    rw [hits_singleton_of_not_covers hcovers, parity_zero, UInt8.xor_zero, FrameBuffer.pixel?,
      mode_setPixel, hsame]
    exact hold

/-- One pixel collides if and only if it covers a lit cell. -/
theorem collides_setPixel (hwf : fb.WellFormed) (hbits : fb.HasBits)
    (hp : fb.mode.Contains p.row p.col) :
    (fb.setPixel p.row p.col p.bit).1 = true ↔ fb.Collides (hits [p]) := by
  constructor
  · intro hhit
    obtain ⟨cell, hcell⟩ := hwf.exists_cell hp
    have hold := pixel?_of_cell hcell
    have hbit : p.bit ≠ 0 := by
      intro hzero
      rw [setPixel_of_misses (Or.inl hzero)] at hhit
      cases hhit
    have hcovers : p.Covers p.row p.col := ⟨hbit, rfl, rfl⟩
    have hlit := (setPixel_of_covers hbits hp hcovers hold).1.1 hhit
    refine ⟨p.row, p.col, cell.logical, hp, hold, ?_⟩
    rw [hlit, hits_singleton_of_covers hcovers]
    decide
  · rintro ⟨row, col, old, hin, hold, htwo⟩
    have hle := hits_singleton_le p row col
    rcases hbits.pixel? hold with rfl | rfl
    -- a dark cell would have to be covered twice, by one pixel
    · have hzero : (0 : UInt8).toNat = 0 := rfl
      omega
    · by_cases hcovers : p.Covers row col
      · exact (setPixel_of_covers hbits hp hcovers hold).1.2 rfl
      · rw [hits_singleton_of_not_covers hcovers] at htwo
        exact absurd htwo (by decide)

/-! ## Pixels one after another -/

/-- The mode, and with it the places, are those of before. -/
theorem mode_drawPlaced (fb : FrameBuffer) (pixels : List PlacedPixel) :
    (fb.drawPlaced pixels).2.mode = fb.mode :=
  drawPlaced_preserves (fun drawn => drawn.mode = fb.mode)
    (fun drawn row col bit h => (mode_setPixel drawn row col bit).trans h) fb rfl pixels

theorem HasBits.drawPlaced (h : fb.HasBits) (pixels : List PlacedPixel) :
    (fb.drawPlaced pixels).2.HasBits :=
  drawPlaced_preserves HasBits (fun _ row col bit h => h.setPixel row col bit) fb h pixels

/-- A cell that no pixel covers is left alone. -/
theorem getElem?_drawPlaced_of_hits_eq_zero (hcol : col < fb.mode.width)
    (hnone : hits pixels row col = 0) :
    (fb.drawPlaced pixels).2.cells[fb.mode.index row col]? =
      fb.cells[fb.mode.index row col]? := by
  induction pixels generalizing fb with
  | nil => rfl
  | cons p rest ih =>
      rw [hits_cons] at hnone
      have hnot : ¬p.Covers row col := by
        intro hcovers
        have hone := hits_singleton_of_covers hcovers
        omega
      have hmode := mode_setPixel fb p.row p.col p.bit
      rw [← hmode] at hcol
      have hend := ih hcol (by omega)
      rw [hmode] at hcol hend
      exact hend.trans (getElem?_setPixel_of_not_covers hcol hnot)

/-- Logical pixel of a place after pixels one after another. -/
theorem pixel?_drawPlaced (hbits : fb.HasBits) (hin : fb.mode.Contains row col)
    (hpixels : ∀ p ∈ pixels, fb.mode.Contains p.row p.col)
    (hold : fb.pixel? row col = some old) :
    (fb.drawPlaced pixels).2.pixel? row col = some (old ^^^ parity (hits pixels row col)) := by
  induction pixels generalizing fb old with
  | nil =>
      rw [hits_nil, parity_zero, UInt8.xor_zero]
      exact hold
  | cons p rest ih =>
      obtain ⟨hp, hrest⟩ := List.forall_mem_cons.1 hpixels
      have hfirst := pixel?_setPixel hbits hin hp hold
      have hmode := mode_setPixel fb p.row p.col p.bit
      rw [← hmode] at hin hrest
      rw [hits_cons, parity_add, ← UInt8.xor_assoc]
      exact ih (hbits.setPixel _ _ _) hin hrest hfirst

/-- Of pixels one after another either the first one collides, or the others do on what it left. -/
theorem collides_cons (hwf : fb.WellFormed) (hbits : fb.HasBits)
    (hp : fb.mode.Contains p.row p.col) (rest : List PlacedPixel) :
    fb.Collides (hits (p :: rest)) ↔
      fb.Collides (hits [p]) ∨ (fb.setPixel p.row p.col p.bit).2.Collides (hits rest) := by
  have hmode := mode_setPixel fb p.row p.col p.bit
  have hstep : ∀ {row col : Nat} {old : UInt8}, fb.pixel? row col = some old →
      (2 ≤ old.toNat + hits (p :: rest) row col ↔ 2 ≤ old.toNat + hits [p] row col ∨
        2 ≤ (old ^^^ parity (hits [p] row col)).toNat + hits rest row col) := by
    intro row col old hold
    rw [hits_cons]
    exact two_le_add_iff (hbits.pixel? hold) (hits_singleton_le p row col) _
  constructor
  · rintro ⟨row, col, old, hin, hold, htwo⟩
    rcases (hstep hold).1 htwo with hfirst | hlater
    · exact Or.inl ⟨row, col, old, hin, hold, hfirst⟩
    · have hnew := pixel?_setPixel hbits hin hp hold
      rw [← hmode] at hin
      exact Or.inr ⟨row, col, _, hin, hnew, hlater⟩
  · rintro (⟨row, col, old, hin, hold, hfirst⟩ | ⟨row, col, new, hin, hnew, hlater⟩)
    · exact ⟨row, col, old, hin, hold, (hstep hold).2 (Or.inl hfirst)⟩
    -- whatever the first pixel did to the cell, it is counted
    · rw [hmode] at hin
      obtain ⟨cell, hcell⟩ := hwf.exists_cell hin
      have hold := pixel?_of_cell hcell
      rw [pixel?_setPixel hbits hin hp hold] at hnew
      obtain rfl := Option.some.inj hnew
      exact ⟨row, col, cell.logical, hin, hold, (hstep hold).2 (Or.inr hlater)⟩

/-- Pixels one after another collide if and only if some cell is lit and covered, or covered
twice. -/
theorem collides_drawPlaced (hwf : fb.WellFormed) (hbits : fb.HasBits)
    (hpixels : ∀ p ∈ pixels, fb.mode.Contains p.row p.col) :
    (fb.drawPlaced pixels).1 = true ↔ fb.Collides (hits pixels) := by
  induction pixels generalizing fb with
  | nil =>
      constructor
      · intro h
        cases h
      -- a single lit cell is no collision yet
      · rintro ⟨row, col, old, -, hold, htwo⟩
        rw [hits_nil] at htwo
        rcases hbits.pixel? hold with rfl | rfl
        · exact absurd htwo (by decide)
        · exact absurd htwo (by decide)
  | cons p rest ih =>
      obtain ⟨hp, hrest⟩ := List.forall_mem_cons.1 hpixels
      have hlater := ih (hwf.setPixel p.row p.col p.bit) (hbits.setPixel p.row p.col p.bit)
        (by rw [mode_setPixel]; exact hrest)
      rw [collides_cons hwf hbits hp, ← collides_setPixel hwf hbits hp, ← hlater,
        ← Bool.or_eq_true]
      rfl

end FrameBuffer

/-! ## Sprites -/

namespace Sprite

theorem placed_eq (s : Sprite) (mode : Mode) :
    s.placed mode = (List.range s.pixels.length).map fun i =>
      FrameBuffer.placePixel mode s.x.toNat s.y.toNat s.rowWidth (s.pixels[i]?.getD 0) i := by
  apply List.ext_getElem
  · simp [placed, FrameBuffer.placeSprite]
  · intro i hi _
    have hlength : i < s.pixels.length := by
      simpa [placed, FrameBuffer.placeSprite] using hi
    simp [placed, FrameBuffer.placeSprite, hlength]

/-- The placed pixels of a sprite hit a place as often as the sprite covers it. -/
theorem hits_placed (s : Sprite) (mode : Mode) : hits (s.placed mode) = s.count mode := by
  funext row col
  rw [placed_eq, hits, List.countP_map]
  rfl

/-- Both axes wrap, so a pixel is placed on a cell of the grid. -/
theorem contains_placed (s : Sprite) (mode : Mode) :
    ∀ p ∈ s.placed mode, mode.Contains p.row p.col := by
  intro p hp
  rw [placed_eq, List.mem_map] at hp
  obtain ⟨i, -, rfl⟩ := hp
  have hwidth : 0 < mode.width := by cases mode <;> decide
  exact ⟨Nat.le_of_lt_succ (Nat.mod_lt _ (Nat.succ_pos _)), Nat.mod_lt _ hwidth⟩

/-- Drawing a sprite is toggling its placed pixels in order. -/
theorem draw_eq (s : Sprite) (fb : FrameBuffer) :
    s.draw fb = fb.drawPlaced (s.placed fb.mode) := by
  rw [draw, FrameBuffer.drawSprite, if_neg (Nat.ne_of_gt s.wide)]
  rfl

theorem mode_draw (s : Sprite) (fb : FrameBuffer) : (s.draw fb).2.mode = fb.mode := by
  rw [draw_eq, FrameBuffer.mode_drawPlaced]

end Sprite

namespace FrameBuffer

variable {fb fb' : FrameBuffer} {row col : Nat} {old : UInt8}

/-- A sprite toggles a pixel once for each time that it covers it. -/
theorem pixel?_draw (hbits : fb.HasBits) (s : Sprite) (hin : fb.mode.Contains row col)
    (hold : fb.pixel? row col = some old) :
    (s.draw fb).2.pixel? row col = some (old ^^^ parity (s.count fb.mode row col)) := by
  rw [s.draw_eq, pixel?_drawPlaced hbits hin (s.contains_placed fb.mode) hold, s.hits_placed]

/-- A sprite collides exactly if it covers a lit pixel or covers one twice. -/
theorem collides_draw (hwf : fb.WellFormed) (hbits : fb.HasBits) (s : Sprite) :
    (s.draw fb).1 = true ↔ fb.Collides (s.count fb.mode) := by
  rw [s.draw_eq, ← s.hits_placed]
  exact collides_drawPlaced hwf hbits (s.contains_placed fb.mode)

theorem HasBits.draw (h : fb.HasBits) (s : Sprite) : (s.draw fb).2.HasBits := by
  rw [s.draw_eq]
  exact h.drawPlaced _

theorem WellFormed.draw (h : fb.WellFormed) (s : Sprite) : (s.draw fb).2.WellFormed :=
  h.drawSprite _ _ _ _

/-- Sprites drawn one after another. -/
def drawAll (fb : FrameBuffer) (sprites : List Sprite) : FrameBuffer :=
  sprites.foldl (fun fb s => (s.draw fb).2) fb

theorem drawAll_cons (fb : FrameBuffer) (s : Sprite) (rest : List Sprite) :
    fb.drawAll (s :: rest) = (s.draw fb).2.drawAll rest := rfl

theorem mode_drawAll (fb : FrameBuffer) (sprites : List Sprite) :
    (fb.drawAll sprites).mode = fb.mode := by
  induction sprites generalizing fb with
  | nil => rfl
  | cons s rest ih => exact (ih (s.draw fb).2).trans (s.mode_draw fb)

theorem WellFormed.drawAll (h : fb.WellFormed) (sprites : List Sprite) :
    (fb.drawAll sprites).WellFormed := by
  induction sprites generalizing fb with
  | nil => exact h
  | cons s rest ih => exact ih (h.draw s)

/-- After several sprites the pixels of all of them count. -/
theorem pixel?_drawAll (hbits : fb.HasBits) (sprites : List Sprite)
    (hin : fb.mode.Contains row col) (hold : fb.pixel? row col = some old) :
    (fb.drawAll sprites).pixel? row col =
      some (old ^^^ parity (hits (sprites.flatMap fun s => s.placed fb.mode) row col)) := by
  induction sprites generalizing fb old with
  | nil =>
      rw [List.flatMap_nil, hits_nil, parity_zero, UInt8.xor_zero]
      exact hold
  | cons s rest ih =>
      have hfirst := pixel?_draw hbits s hin hold
      have hmode := s.mode_draw fb
      rw [← hmode] at hin
      rw [drawAll_cons, ih (hbits.draw s) hin hfirst, hmode, List.flatMap_cons, hits_append,
        parity_add, s.hits_placed, UInt8.xor_assoc]

/-- Frame buffers with the same logical pixel at every place. -/
theorem sameLogical_of_pixel? (h : fb.WellFormed) (h' : fb'.WellFormed) (hmode : fb.mode = fb'.mode)
    (hpixel : ∀ row col, fb.mode.Contains row col → fb.pixel? row col = fb'.pixel? row col) :
    fb.SameLogical fb' := by
  refine sameLogical_of_getElem? hmode fun i => ?_
  rcases Nat.lt_or_ge i fb.mode.totalCells with hi | hi
  · obtain ⟨row, col, hin, rfl⟩ := exists_place hi
    have hsame := hpixel row col hin
    rw [pixel?, pixel?, ← hmode] at hsame
    exact hsame
  -- past the end there is no cell on either side
  · have hsize : fb.cells.size ≤ i := h ▸ hi
    have hsize' : fb'.cells.size ≤ i := h' ▸ hmode ▸ hi
    rw [Array.getElem?_eq_none hsize, Array.getElem?_eq_none hsize']

/-- On a grid of zeros and ones a sprite exclusive-ors every logical pixel with the parity of its
lit pixels there, leaves cells without any alone, and collides if and only if a cell is lit and
covered or covered twice. The order of several sprites does not matter. -/
theorem draws_exclusive_or (hwf : fb.WellFormed) (hbits : fb.HasBits) :
    (∀ s : Sprite, (s.draw fb).2.mode = fb.mode ∧
      (∀ row col, fb.mode.Contains row col → ∃ old, fb.pixel? row col = some old ∧
        (s.draw fb).2.pixel? row col = some (old ^^^ parity (s.count fb.mode row col)) ∧
        (s.count fb.mode row col = 0 →
          (s.draw fb).2.cells[fb.mode.index row col]? = fb.cells[fb.mode.index row col]?)) ∧
      ((s.draw fb).1 = true ↔ ∃ row col old, fb.mode.Contains row col ∧
        fb.pixel? row col = some old ∧ 2 ≤ old.toNat + s.count fb.mode row col)) ∧
      ∀ sprites sprites' : List Sprite, sprites.Perm sprites' →
        (fb.drawAll sprites).SameLogical (fb.drawAll sprites') := by
  constructor
  · intro s
    refine ⟨s.mode_draw fb, ?_, ?_⟩
    · intro row col hin
      obtain ⟨cell, hcell⟩ := hwf.exists_cell hin
      have hold := pixel?_of_cell hcell
      refine ⟨cell.logical, hold, pixel?_draw hbits s hin hold, fun hnone => ?_⟩
      rw [← s.hits_placed] at hnone
      rw [s.draw_eq]
      exact getElem?_drawPlaced_of_hits_eq_zero hin.col_lt hnone
    · exact collides_draw hwf hbits s
  · intro sprites sprites' hperm
    have hmode : (fb.drawAll sprites).mode = (fb.drawAll sprites').mode :=
      (fb.mode_drawAll sprites).trans (fb.mode_drawAll sprites').symm
    refine sameLogical_of_pixel? (hwf.drawAll sprites) (hwf.drawAll sprites') hmode ?_
    intro row col hin
    rw [fb.mode_drawAll] at hin
    obtain ⟨cell, hcell⟩ := hwf.exists_cell hin
    have hold := pixel?_of_cell hcell
    have hhits : hits (sprites.flatMap fun s => s.placed fb.mode) row col =
        hits (sprites'.flatMap fun s => s.placed fb.mode) row col :=
      (hperm.flatMap_right _).countP_eq _
    rw [pixel?_drawAll hbits sprites hin hold, pixel?_drawAll hbits sprites' hin hold, hhits]

theorem hasBits_new : new.HasBits := by
  intro i cell hcell
  have hmem := Array.mem_of_getElem? hcell
  rw [Array.eq_of_mem_replicate hmem]
  exact Or.inl rfl

theorem pixel?_new (hin : Mode.standard.Contains row col) : new.pixel? row col = some 0 :=
  pixel?_of_cell (getElem?_new hin)

/-- A column of three pixels that runs off the bottom: the hidden row is lit before, so the first
pixel collides; the last one lands in row one. -/
theorem draws_exclusive_or_wrapped :
    let fb := (new.setPixel 32 3 1).2
    let s : Sprite := ⟨3, 32, 1, [1, 0, 1], by decide⟩
    fb.WellFormed ∧ fb.HasBits ∧ fb.pixel? 32 3 = some 1 ∧ fb.pixel? 1 3 = some 0 ∧
      (s.draw fb).1 = true ∧ (s.draw fb).2.pixel? 32 3 = some 0 ∧
      (s.draw fb).2.pixel? 1 3 = some 1 := by
  intro fb s
  let p : PlacedPixel := ⟨32, 3, 1⟩
  have hwf : fb.WellFormed := wellFormed_new.setPixel 32 3 1
  have hbits : fb.HasBits := hasBits_new.setPixel 32 3 1
  have hhidden : Mode.standard.Contains 32 3 := ⟨by decide, by decide⟩
  have hupper : Mode.standard.Contains 1 3 := ⟨by decide, by decide⟩
  have hfb : ∀ row, Mode.standard.Contains row 3 →
      fb.pixel? row 3 = some (0 ^^^ parity (hits [p] row 3)) := by
    intro row hin
    exact pixel?_setPixel (p := p) hasBits_new hin hhidden (pixel?_new hin)
  have hhits : hits [p] 32 3 = 1 ∧ hits [p] 1 3 = 0 := by decide
  have hlit : fb.pixel? 32 3 = some 1 := by
    rw [hfb 32 hhidden, hhits.1]
    rfl
  have hdark : fb.pixel? 1 3 = some 0 := by
    rw [hfb 1 hupper, hhits.2]
    rfl
  have hmode : fb.mode = .standard := mode_setPixel new 32 3 1
  have hcount : s.count .standard 32 3 = 1 ∧ s.count .standard 1 3 = 1 := by decide
  obtain ⟨-, hpixels, hcollides⟩ := (draws_exclusive_or hwf hbits).1 s
  rw [hmode] at hpixels hcollides
  obtain ⟨old, hold, hfirst, -⟩ := hpixels 32 3 hhidden
  obtain ⟨old', hold', hlast, -⟩ := hpixels 1 3 hupper
  obtain rfl : 1 = old := Option.some.inj (hlit.symm.trans hold)
  obtain rfl : 0 = old' := Option.some.inj (hdark.symm.trans hold')
  rw [hcount.1] at hfirst
  rw [hcount.2] at hlast
  refine ⟨hwf, hbits, hlit, hdark, hcollides.2 ⟨32, 3, 1, hhidden, hlit, ?_⟩, hfirst, hlast⟩
  rw [hcount.1]
  decide

end FrameBuffer

end Schip
