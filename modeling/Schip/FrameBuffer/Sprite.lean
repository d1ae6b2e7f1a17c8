import Schip.FrameBuffer

/-!
# Sprites

A sprite is a list of pixels in rows of a given width. Its pixels are placed on the grid first,
wrapping over the columns and over all rows with the hidden one, and are then drawn one after
another.
-/

set_option autoImplicit false

namespace Schip

/-- Pixel of a sprite with its place on the grid. -/
structure PlacedPixel where
  row : Nat
  col : Nat
  bit : UInt8
  deriving DecidableEq, Repr

namespace FrameBuffer

/-- Place on the grid of pixel number `i` of a sprite drawn at (`x`, `y`). -/
def placePixel (mode : Mode) (x y rowWidth : Nat) (bit : UInt8) (i : Nat) : PlacedPixel where
  row := (y + i / rowWidth) % (mode.height + 1)
  col := (x + i % rowWidth) % mode.width
  bit := bit

/-- Places of all pixels of a sprite, in order. -/
def placeSprite (mode : Mode) (x y rowWidth : Nat) (pixels : List UInt8) : List PlacedPixel :=
  pixels.mapIdx fun i bit => placePixel mode x y rowWidth bit i

/-- Placed pixels drawn in order, and whether any of them switched a lit pixel off. -/
def drawPlaced (fb : FrameBuffer) : List PlacedPixel → Bool × FrameBuffer
  | [] => (false, fb)
  | p :: rest =>
    match fb.setPixel p.row p.col p.bit with
    | (hit, fb') =>
      match drawPlaced fb' rest with
      | (hitRest, fb'') => (hit || hitRest, fb'')

/-- Sprite drawn at (`x`, `y`), and whether it collided. A sprite of width zero draws nothing. -/
def drawSprite (fb : FrameBuffer) (x y rowWidth : Nat) (pixels : List UInt8) :
    Bool × FrameBuffer :=
  if rowWidth = 0 then (false, fb)
  else fb.drawPlaced (placeSprite fb.mode x y rowWidth pixels)

/-- Eight pixels of a byte, the highest bit first. -/
def bytePixels (byte : UInt8) : List UInt8 :=
  [7, 6, 5, 4, 3, 2, 1, 0].map fun shift : UInt8 => (byte >>> shift) &&& 1

/-- What every pixel keeps, a sprite keeps. -/
theorem drawPlaced_preserves (P : FrameBuffer → Prop)
    (hP : ∀ fb row col bit, P fb → P (fb.setPixel row col bit).2) (fb : FrameBuffer) (h : P fb)
    (pixels : List PlacedPixel) : P (fb.drawPlaced pixels).2 := by
  induction pixels generalizing fb with
  | nil => exact h
  | cons p rest ih => exact ih _ (hP fb p.row p.col p.bit h)

/-- A sprite changes cells in place. -/
theorem WellFormed.drawSprite {fb : FrameBuffer} (h : fb.WellFormed) (x y rowWidth : Nat)
    (pixels : List UInt8) : (fb.drawSprite x y rowWidth pixels).2.WellFormed := by
  unfold FrameBuffer.drawSprite
  split
  · exact h
  · exact drawPlaced_preserves WellFormed (fun _ row col bit h => h.setPixel row col bit) fb h _

end FrameBuffer

end Schip
