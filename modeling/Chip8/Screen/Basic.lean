/-! # The screen

Thirty-two rows of sixty-four pixels, each lit or dark. A row is one 64-bit
word whose most significant bit is the leftmost pixel.
-/

namespace Chip8

/-- The pixels, row by row from the top. -/
structure Screen where
  rows : Vector (BitVec 64) 32
  deriving DecidableEq

namespace Screen

def width : Nat := 64

def height : Nat := 32

def blank : Screen := ⟨Vector.replicate 32 0⟩

/-- Whether the pixel in row `r` and column `c` is lit; nothing outside is. -/
def lit (s : Screen) (r c : Nat) : Bool := (s.rows[r]?.getD 0).getMsbD c

def setRow (s : Screen) (r : Nat) (row : BitVec 64) : Screen := ⟨s.rows.setIfInBounds r row⟩

def flip (s mask : Screen) : Screen := ⟨s.rows.zipWith (· ^^^ ·) mask.rows⟩

def meets (s mask : Screen) : Bool := (s.rows.zipWith (· &&& ·) mask.rows).any (· != 0)

def pixels (s : Screen) : List (List Bool) :=
  (List.range 32).map fun r => (List.range 64).map (s.lit r)

theorem lit_blank (r c : Nat) : blank.lit r c = false := by
  simp only [lit, blank, Vector.getElem?_replicate]
  split <;> simp

@[simp] theorem lit_flip (s m : Screen) (r c : Nat) :
    (s.flip m).lit r c = (s.lit r c ^^ m.lit r c) := by
  simp only [lit, flip]
  by_cases h : r < 32
  · simp [h, BitVec.getMsbD_xor]
  · simp [h]

theorem lit_setRow (s : Screen) (r : Nat) (row : BitVec 64) (r' c : Nat) :
    (s.setRow r row).lit r' c = if r = r' ∧ r' < 32 then row.getMsbD c else s.lit r' c := by
  simp only [lit, setRow, Vector.getElem?_setIfInBounds]
  grind

end Screen

end Chip8
