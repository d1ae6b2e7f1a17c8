import Schip.Rounding

/-!
# Resolution

The size of a picture in pixels and what a canvas needs to show it: bounds of its coordinates, the
marker that stands for pixels, and the number of character cells including a border.

Coordinates of a canvas have 53 significant binary digits, so the bounds of a picture that is larger
than that are rounded (`xBounds_of_le` and `yBounds_of_le` say when they are exact). Character cells
are counted in 16 bits. A picture without pixels and one that needs more cells than can be counted
have no canvas.
-/

set_option autoImplicit false

namespace Schip

/-- Width and height of a picture. -/
structure Resolution where
  width : Nat
  height : Nat
  deriving DecidableEq, Repr

/-- How a canvas packs pixels into character cells. -/
inductive Marker where
  /-- One pixel to a cell. -/
  | block
  /-- Two columns by four rows of pixels to a cell. -/
  | braille
  deriving DecidableEq, Repr

/-- What a canvas needs to show a picture. -/
structure Canvas where
  /-- Least and greatest horizontal coordinate. -/
  x : Int × Int
  /-- Least and greatest vertical coordinate. -/
  y : Int × Int
  marker : Marker
  /-- Character cells across and down. -/
  cells : Nat × Nat
  deriving DecidableEq, Repr

namespace Resolution

/-- Significant binary digits of a coordinate. -/
def coordinateDigits : Nat := 53

/-- Coordinate of the last of `count` columns or rows, by its distance from the first. -/
def lastCoordinate (count : Nat) : Nat := Rounding.toSignificant coordinateDigits (count - 1)

/-- Least and greatest horizontal coordinate. -/
def xBounds (r : Resolution) : Int × Int := (0, Int.ofNat (lastCoordinate r.width))

/-- Least and greatest vertical coordinate; rows count downward from zero. -/
def yBounds (r : Resolution) : Int × Int := (-Int.ofNat (lastCoordinate r.height), 0)

/-- Marker that makes the picture fit: more than 64 columns are packed. -/
def marker (r : Resolution) : Marker :=
  if r.width > 64 then .braille else .block

/-- Number from which on character cells are no longer counted. -/
def cellLimit : Nat := 1 <<< 16

/-- Cells along one side: those of the picture, of which only the low 16 bits count, and a border of
one cell at each end. -/
def withBorder (count : Nat) : Nat := 2 + count % cellLimit

/-- Character cells across and down, with the border. -/
def cells (r : Resolution) : Nat × Nat :=
  match r.marker with
  | .braille => (withBorder (r.width / 2), withBorder (r.height / 4))
  | .block => (withBorder r.width, withBorder r.height)

/-- Canvas for a picture, if there is one. -/
def canvas? (r : Resolution) : Option Canvas :=
  if 0 < r.width ∧ 0 < r.height ∧ r.cells.1 < cellLimit ∧ r.cells.2 < cellLimit then
    some { x := r.xBounds, y := r.yBounds, marker := r.marker, cells := r.cells }
  else
    none

/-- Up to two to the power fifty-three counts are exact, and so the last coordinate is. -/
theorem lastCoordinate_of_le {count : Nat} (h : count ≤ 1 <<< 53) :
    lastCoordinate count = count - 1 :=
  Rounding.toSignificant_of_lt (by rw [coordinateDigits]; omega)

/-- The horizontal bounds are those of the columns. -/
theorem xBounds_of_le {r : Resolution} (h : r.width ≤ 1 <<< 53) :
    r.xBounds = (0, Int.ofNat (r.width - 1)) := by
  rw [xBounds, lastCoordinate_of_le h]

/-- The vertical bounds are those of the rows, counted downwards from zero. -/
theorem yBounds_of_le {r : Resolution} (h : r.height ≤ 1 <<< 53) :
    r.yBounds = (-Int.ofNat (r.height - 1), 0) := by
  rw [yBounds, lastCoordinate_of_le h]

end Resolution

end Schip
