import Chip8.Picture.Basic

/-! # Photographs

What remains of a picture in a photographic file. Its brightness and, at half
the size, its two colour differences are cut into blocks of eight by eight, and
of the frequencies of a block only multiples of fixed steps are kept.
-/

namespace Chip8

/-- Rows of samples. Beyond the last row or column the last one goes on. -/
structure Plane where
  height : Nat
  width : Nat
  samples : Array Int

namespace Plane

def build (height width : Nat) (sample : Nat → Nat → Int) : Plane where
  height
  width
  samples := Array.ofFn fun i : Fin (height * width) => sample (i.val / width) (i.val % width)

def get (p : Plane) (r c : Nat) : Int :=
  p.samples[min r (p.height - 1) * p.width + min c (p.width - 1)]?.getD 0

end Plane

namespace Photograph

def cut (bits : Nat) (n : Int) : Int := n >>> bits

def descale (bits : Nat) (n : Int) : Int := cut bits (n + (1 <<< (bits - 1) : Nat))

def clampByte (n : Int) : Int := max 0 (min 255 n)

/-! ## Frequencies -/

def rotate (a b c d : Int) : Int × Int × Int × Int :=
  let z5 := (a + b + c + d) * 9633
  let z1 := (a + d) * -7373
  let z2 := (b + c) * -20995
  let z3 := (a + c) * -16069 + z5
  let z4 := (b + d) * -3196 + z5
  (a * 2446 + z1 + z3, b * 16819 + z2 + z4, c * 25172 + z2 + z3, d * 12299 + z1 + z4)

def forward (even odd : Int → Int) (x : Nat → Int) : Array Int :=
  let t0 := x 0 + x 7
  let t1 := x 1 + x 6
  let t2 := x 2 + x 5
  let t3 := x 3 + x 4
  let t10 := t0 + t3
  let t13 := t0 - t3
  let t11 := t1 + t2
  let t12 := t1 - t2
  let z := (t12 + t13) * 4433
  let (f7, f5, f3, f1) := rotate (x 3 - x 4) (x 2 - x 5) (x 1 - x 6) (x 0 - x 7)
  #[even (t10 + t11), odd f1, odd (z + t13 * 6270), odd f3, even (t10 - t11), odd f5,
    odd (z - t12 * 15137), odd f7]

def inverse (scale : Int → Int) (f : Nat → Int) : Array Int :=
  let z := (f 2 + f 6) * 4433
  let t2 := z - f 6 * 15137
  let t3 := z + f 2 * 6270
  let t0 := (f 0 + f 4) * 8192
  let t1 := (f 0 - f 4) * 8192
  let (d4, d3, d2, d1) := rotate (f 7) (f 5) (f 3) (f 1)
  #[scale (t0 + t3 + d1), scale (t1 + t2 + d2), scale (t1 - t2 + d3), scale (t0 - t3 + d4),
    scale (t0 - t3 - d4), scale (t1 - t2 - d3), scale (t1 + t2 - d2), scale (t0 + t3 - d1)]

def turn (transform : (Nat → Int) → Array Int) (block : Array Int) : Array Int :=
  let lines := (Array.range 8).map fun r => transform fun c => block[8 * r + c]?.getD 0
  Array.ofFn fun i : Fin 64 => ((lines[i.val % 8]?.getD #[])[i.val / 8]?).getD 0

/-- The multiple of a step nearest to a frequency, which is eight times too large. -/
def nearest (step : Nat) (n : Int) : Int :=
  let k := (n.natAbs + 4 * step) / (8 * step)
  if n < 0 then -(k * step : Nat) else (k * step : Nat)

def keepBlock (steps : Array Nat) (block : Array Int) : Array Int :=
  let frequencies := turn (forward (descale 2) (descale 15))
    (turn (forward (· * 4) (descale 11)) (block.map (· - 128)))
  let kept := frequencies.mapIdx fun i n => nearest (steps[i]?.getD 1) n
  let samples := turn (inverse (descale 18)) (turn (inverse (descale 11)) (turn id' kept))
  (turn id' samples).map fun n => clampByte (n + 128)
where
  id' (x : Nat → Int) : Array Int := (Array.range 8).map x

def keep (steps : Array Nat) (height width : Nat) (sample : Nat → Nat → Int) : Plane :=
  let columns := (width + 7) / 8
  let blocks := Array.ofFn fun b : Fin ((height + 7) / 8 * columns) =>
    keepBlock steps (Array.ofFn fun i : Fin 64 =>
      sample (b.val / columns * 8 + i.val / 8) (b.val % columns * 8 + i.val % 8))
  .build height width fun r c =>
    ((blocks[r / 8 * columns + c / 8]?.getD #[])[r % 8 * 8 + c % 8]?).getD 0

def brightSteps : Array Nat :=
  #[8, 6, 5, 8, 12, 20, 26, 31, 6, 6, 7, 10, 13, 29, 30, 28, 7, 7, 8, 12, 20, 29, 35, 28,
    7, 9, 11, 15, 26, 44, 40, 31, 9, 11, 19, 28, 34, 55, 52, 39, 12, 18, 28, 32, 41, 52, 57, 46,
    25, 32, 39, 44, 52, 61, 60, 51, 36, 46, 48, 49, 56, 50, 52, 50]

def colorSteps : Array Nat :=
  #[9, 9, 12, 24, 50, 50, 50, 50, 9, 11, 13, 33, 50, 50, 50, 50, 12, 13, 28, 50, 50, 50, 50, 50,
    24, 33, 50, 50, 50, 50, 50, 50, 50, 50, 50, 50, 50, 50, 50, 50, 50, 50, 50, 50, 50, 50, 50, 50,
    50, 50, 50, 50, 50, 50, 50, 50, 50, 50, 50, 50, 50, 50, 50, 50]

/-! ## Half size -/

def halved (p : Plane) (r c : Nat) : Int :=
  let r := min r ((p.height + 1) / 2 - 1)
  cut 2 (p.get (2 * r) (2 * c) + p.get (2 * r) (2 * c + 1) + p.get (2 * r + 1) (2 * c) +
    p.get (2 * r + 1) (2 * c + 1) + 1 + (c % 2 : Nat))

def doubled (p : Plane) (r c : Nat) : Int :=
  if p.width ≤ 2 then p.get (r / 2) (c / 2)
  else
    let near := r / 2
    let far := if r % 2 = 0 then near - 1 else near + 1
    let column (c : Nat) : Int := 3 * p.get near c + p.get far c
    let own := column (c / 2)
    if c % 2 = 0 then
      cut 4 (if c = 0 then 4 * own + 8 else 3 * own + column (c / 2 - 1) + 8)
    else cut 4 (if c / 2 + 1 = p.width then 4 * own + 7 else 3 * own + column (c / 2 + 1) + 7)

/-! ## Colours -/

def byteOf (n : Int) : UInt8 := UInt8.ofInt (clampByte n)

def colorOf (y b r : Int) : Color where
  red := byteOf (y + cut 16 (91881 * (r - 128) + 32768))
  green := byteOf (y + cut 16 (-22554 * (b - 128) - 46802 * (r - 128) + 32768))
  blue := byteOf (y + cut 16 (116130 * (b - 128) + 32768))

def bright (r g b : Int) : Int := cut 16 (19595 * r + 38470 * g + 7471 * b + 32768)

def blueness (r g b : Int) : Int :=
  cut 16 (-11059 * r - 21709 * g + 32768 * b + 8421375)

def redness (r g b : Int) : Int :=
  cut 16 (32768 * r - 27439 * g - 5329 * b + 8421375)

end Photograph

open Photograph in
/-- What remains of a picture in a photographic file. -/
def Picture.photographed (p : Picture) : Picture :=
  let colors := (p.rows.map List.toArray).toArray
  let plane (f : Int → Int → Int → Int) : Plane := .build p.height p.width fun r c =>
    let color := ((colors[r]?.getD #[])[c]?).getD ⟨0, 0, 0⟩
    f color.red.toNat color.green.toNat color.blue.toNat
  let small (f : Int → Int → Int → Int) : Plane :=
    keep colorSteps ((p.height + 1) / 2) ((p.width + 1) / 2) (halved (plane f))
  let y := keep brightSteps p.height p.width (plane bright).get
  let b := small blueness
  let r := small redness
  { p with
    rows := (List.range p.height).map fun i => (List.range p.width).map fun j =>
      colorOf (y.get i j) (doubled b i j) (doubled r i j) }

end Chip8
