import Chip8.Text.Decimal

/-! # Nearest doubles

The double nearest to a fraction. Of two nearest ones, the one with the even
significand is taken; a fraction that rounds beyond the largest double has none.
-/

namespace Chip8.Text

def lastPlace (num den : Nat) : Int :=
  let e : Int := (num.log2 : Int) - den.log2 - 52
  let e := if num <<< (-e).toNat < (den <<< e.toNat) <<< 52 then e - 1 else e
  max e (-1074)

/-- The bits of the double nearest to a fraction, if it is not too large. -/
def nearestBits? (num den : Nat) : Option Nat :=
  if num = 0 then some 0
  else
    let e := lastPlace num den
    let q := roundHalfEven (num <<< (-e).toNat) (den <<< e.toNat)
    let bits := ((e + 1074).toNat <<< 52) + q
    if bits < 0x7FF0000000000000 then some bits else none

def nearest? (num : Int) (den : Nat) : Option Float :=
  (nearestBits? num.natAbs den).map fun bits =>
    let x := Float.ofBits (UInt64.ofNat bits)
    if num < 0 then -x else x

end Chip8.Text
