import Chip8.Screen.Basic

/-! # Sprites

A sprite is a column of bytes, eight pixels each. Drawing flips the pixels that
it covers and tells whether one of them was lit. The corner is taken modulo the
screen; what runs past the right or bottom edge comes back on the other side or,
when clipped, is dropped.
-/

namespace Chip8

namespace Sprite

def width : Nat := 8

def pixels (b : UInt8) : List Bool := (List.range 8).map b.toBitVec.getMsbD

/-- A sprite byte as a screen row that starts in the given column. -/
def row (clip : Bool) (column : Nat) (b : UInt8) : BitVec 64 :=
  let row := b.toBitVec.setWidth 64 <<< 56
  if clip then row >>> column else row.rotateRight column

def paint (clip : Bool) (column : Nat) : Nat → List UInt8 → Screen → Screen
  | _, [], mask => mask
  | r, b :: bs, mask =>
    paint clip column (r + 1) bs
      (mask.setRow (r % 32) (if clip && decide (32 ≤ r) then 0 else row clip column b))

/-- The pixels that a sprite covers when its corner is at `(x, y)`. -/
def mask (clip : Bool) (x y : Int) (sprite : List UInt8) : Screen :=
  paint clip (x % 64).toNat (y % 32).toNat sprite .blank

end Sprite

/-- Flips the pixels under a sprite and tells whether a lit one was among them. -/
def Screen.draw (s : Screen) (x y : Int) (sprite : List UInt8) (clip : Bool) : Screen × Bool :=
  let mask := Sprite.mask clip x y sprite
  (s.flip mask, s.meets mask)

end Chip8
