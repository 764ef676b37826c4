import Chip8.Setting.Integer

/-! # Pictures

Colour pictures of a black and white screen. Each pixel becomes a square of one
colour, and a scale below two leaves the size as it is.
-/

namespace Chip8

structure Color where
  red : UInt8
  green : UInt8
  blue : UInt8
  deriving DecidableEq, Repr, Inhabited

/-- Rows of colours, all of the same width. -/
structure Picture where
  height : Nat
  width : Nat
  rows : List (List Color)
  deriving DecidableEq, Repr

namespace Picture

/-- The side of the square that stands for a pixel. -/
def side (scale : Int) : Nat := (max 1 scale).toNat

/-- The number of bytes in a picture; an empty side counts as one pixel. -/
def byteCount (height width : Nat) : Nat := 3 * max 1 height * max 1 width

/-- The scale that a setting asks for, for rows of pixels of a width, where `room` tells whether so
many bytes can be held. One that is at most one leaves the size as it is. -/
def scaleWithin (room : Nat → Bool) (scale : Setting) (height width : Nat) : Except Failure Int :=
  match scale.quantity? with
  | none => .error .unsuitable
  | some q =>
    if (Quantity.whole 1).lt q then do
      let k ← Setting.integerOfQuantity q
      if 0x8000000000000000 ≤ k then throw .valueOutOfRange
      let bytes := byteCount (height * k.toNat) (width * k.toNat)
      if 0x8000000000000000 ≤ bytes then throw .improper
      if !room bytes then throw .exhausted
      return k
    else .ok 1

def widen {α : Type} (k : Nat) (xs : List α) : List α := xs.flatMap (List.replicate k)

/-- Turns each pixel of some rows of a width into a square. -/
def ofRows (scale : Int) (width : Nat) (rows : List (List Color)) : Picture where
  height := rows.length * side scale
  width := width * side scale
  rows := widen (side scale) (rows.map (widen (side scale)))

/-- Paints lit and dark pixels in two colours, each as a square. -/
def ofPixels (scale : Int) (on off : Color) (pixels : List (List Bool)) : Picture where
  height := pixels.length * side scale
  width := (pixels.head?.getD []).length * side scale
  rows := widen (side scale) (pixels.map fun row =>
    widen (side scale) (row.map fun lit => if lit then on else off))

def pixel? (p : Picture) (r c : Nat) : Option Color := do (← p.rows[r]?)[c]?

end Picture

end Chip8
