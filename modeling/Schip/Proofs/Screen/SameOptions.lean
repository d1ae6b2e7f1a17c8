import Schip.FrameBuffer.Scroll
import Schip.FrameBuffer.Sprite
import Schip.Proofs.Screen.Pixel

/-!
# Frame buffers with the same options

`SameOptions` relates two frame buffers with the same choice of whether flicker is reduced and of
how long a pixel glows. Drawing and scrolling stay within the relation.
-/

set_option autoImplicit false

namespace Schip.FrameBuffer

/-- Same choice of both options. -/
structure SameOptions (fb fb' : FrameBuffer) : Prop where
  reduceFlicker : fb.reduceFlicker = fb'.reduceFlicker
  decayDelay : fb.decayDelay = fb'.decayDelay

variable {fb fb' fb'' : FrameBuffer}

theorem SameOptions.refl (fb : FrameBuffer) : fb.SameOptions fb := ⟨rfl, rfl⟩

theorem SameOptions.symm (h : fb.SameOptions fb') : fb'.SameOptions fb :=
  ⟨h.reduceFlicker.symm, h.decayDelay.symm⟩

theorem SameOptions.trans (h : fb.SameOptions fb') (h' : fb'.SameOptions fb'') :
    fb.SameOptions fb'' :=
  ⟨h.reduceFlicker.trans h'.reduceFlicker, h.decayDelay.trans h'.decayDelay⟩

theorem sameOptions_setPixel (fb : FrameBuffer) (row col : Nat) (bit : UInt8) :
    (fb.setPixel row col bit).2.SameOptions fb := by
  rcases setPixel_cases fb row col bit with ⟨-, heq⟩ | ⟨cell, -, -, heq⟩ | ⟨cell, -, -, heq⟩
  · rw [heq]
    exact SameOptions.refl fb
  · rw [heq]
    exact ⟨rfl, rfl⟩
  · rw [heq]
    exact ⟨rfl, rfl⟩

theorem sameOptions_drawSprite (fb : FrameBuffer) (x y rowWidth : Nat) (pixels : List UInt8) :
    (fb.drawSprite x y rowWidth pixels).2.SameOptions fb := by
  rw [drawSprite]
  split
  · exact SameOptions.refl fb
  · exact drawPlaced_preserves (fun drawn => drawn.SameOptions fb)
      (fun drawn row col bit h => (sameOptions_setPixel drawn row col bit).trans h) fb
      (SameOptions.refl fb) _

theorem sameOptions_repeated (edit : FrameBuffer → FrameBuffer)
    (hedit : ∀ fb : FrameBuffer, (edit fb).SameOptions fb) (n : Nat) (fb : FrameBuffer) :
    (repeated edit n fb).SameOptions fb :=
  repeated_preserves (fun moved => moved.SameOptions fb) edit
    (fun moved h => (hedit moved).trans h) n fb (SameOptions.refl fb)

end Schip.FrameBuffer
