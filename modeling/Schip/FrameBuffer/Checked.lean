import Schip.FrameBuffer.Scroll
import Schip.FrameBuffer.Sprite

/-!
# Checked operations

Drawing and scrolling by arguments that are 64-bit words. The indices, places and lengths that an
operation computes from its arguments have to be words too. Where one of them is not, the operation
is refused; in all other cases it does what the operation on natural numbers does, and the lemmas
`setPixelChecked?_eq_none_iff`, `drawSpriteChecked?_of_small` and `scrollDownChecked?_of_small` say
when that is.
-/

set_option autoImplicit false

namespace Schip.FrameBuffer

/-- Least number that is not a word. -/
def wordLimit : Nat := 1 <<< 64

/-- Whether the places of all pixels of a sprite are words before they wrap over the grid. -/
def SpriteFits (x y rowWidth count : Nat) : Prop :=
  ∀ i < count, x + i % rowWidth < wordLimit ∧ y + i / rowWidth < wordLimit

instance (x y rowWidth count : Nat) : Decidable (SpriteFits x y rowWidth count) := by
  unfold SpriteFits
  infer_instance

/-- Exclusive-or of one pixel. It is refused if the pixel is set, its column exists and its index is
not a word. -/
def setPixelChecked? (fb : FrameBuffer) (row col : UInt64) (bit : UInt8) :
    Option (Bool × FrameBuffer) :=
  if bit = 0 ∨ fb.mode.width ≤ col.toNat ∨ fb.mode.index row.toNat col.toNat < wordLimit then
    some (fb.setPixel row.toNat col.toNat bit)
  else
    none

/-- Sprite drawn at (`x`, `y`). It is refused if the place of one of its pixels is not a word. -/
def drawSpriteChecked? (fb : FrameBuffer) (x y rowWidth : UInt64) (pixels : List UInt8) :
    Option (Bool × FrameBuffer) :=
  if rowWidth = 0 ∨ SpriteFits x.toNat y.toNat rowWidth.toNat pixels.length then
    some (fb.drawSprite x.toNat y.toNat rowWidth.toNat pixels)
  else
    none

/-- Scroll down by `lines` rows. It is refused if the number of cells in them is not a word. -/
def scrollDownChecked? (fb : FrameBuffer) (lines : UInt64) : Option FrameBuffer :=
  if fb.mode.width * lines.toNat < wordLimit then some (fb.scrollDown lines.toNat) else none

/-- A pixel is refused exactly if it is set, its column exists and its index is not a word. -/
theorem setPixelChecked?_eq_none_iff (fb : FrameBuffer) (row col : UInt64) (bit : UInt8) :
    fb.setPixelChecked? row col bit = none ↔
      bit ≠ 0 ∧ col.toNat < fb.mode.width ∧
        wordLimit ≤ fb.mode.index row.toNat col.toNat := by
  simp [setPixelChecked?]

/-- Places and counts below two to the power thirty-two are far from the limit. -/
theorem spriteFits_of_small {x y rowWidth count : Nat} (hx : x < 1 <<< 32) (hy : y < 1 <<< 32)
    (hcount : count < 1 <<< 32) : SpriteFits x y rowWidth count := by
  intro i hi
  have hmod := Nat.mod_le i rowWidth
  have hdiv := Nat.div_le_self i rowWidth
  have hlimit : wordLimit = 18446744073709551616 := rfl
  omega

/-- A sprite that is small and near is never refused. -/
theorem drawSpriteChecked?_of_small (fb : FrameBuffer) {x y : UInt64} (rowWidth : UInt64)
    {pixels : List UInt8} (hx : x.toNat < 1 <<< 32) (hy : y.toNat < 1 <<< 32)
    (hcount : pixels.length < 1 <<< 32) :
    fb.drawSpriteChecked? x y rowWidth pixels =
      some (fb.drawSprite x.toNat y.toNat rowWidth.toNat pixels) := by
  rw [drawSpriteChecked?, if_pos (Or.inr (spriteFits_of_small hx hy hcount))]

/-- A scroll by fewer lines than two to the power thirty-two is never refused. -/
theorem scrollDownChecked?_of_small (fb : FrameBuffer) {lines : UInt64}
    (h : lines.toNat < 1 <<< 32) :
    fb.scrollDownChecked? lines = some (fb.scrollDown lines.toNat) := by
  have hwidth : fb.mode.width ≤ 128 := by cases fb.mode <;> decide
  have hcells : fb.mode.width * lines.toNat ≤ 128 * lines.toNat := Nat.mul_le_mul_right _ hwidth
  have hlimit : wordLimit = 18446744073709551616 := rfl
  rw [scrollDownChecked?, if_pos (by omega)]

end Schip.FrameBuffer
