/-! # The random generator

A counter-based generator: twenty rounds of addition, rotation and exclusive or
turn a key and a counter into two new words. Each draw splits the key in two,
keeps one half and takes the byte from the other.
-/

namespace Chip8

/-- The key of the generator. -/
structure Generator where
  high : UInt32
  low : UInt32
  deriving DecidableEq, Repr, Inhabited

namespace Generator

def ofSeed (seed : Int) : Generator := ⟨0, UInt32.ofInt seed⟩

def rotateLeft (x : UInt32) (n : UInt32) : UInt32 := (x <<< n) ||| (x >>> (32 - n))

def mix (x : UInt32 × UInt32) (n : UInt32) : UInt32 × UInt32 :=
  let a := x.1 + x.2
  (a, rotateLeft x.2 n ^^^ a)

def inject (rotations : List UInt32) (k₀ k₁ : UInt32) (x : UInt32 × UInt32) :
    UInt32 × UInt32 :=
  let y := rotations.foldl mix x
  (y.1 + k₀, y.2 + k₁)

def words (k : Generator) (c₀ c₁ : UInt32) : Generator :=
  let k₂ := k.high ^^^ k.low ^^^ 0x1BD11BDA
  let even := [13, 15, 26, 6]
  let odd := [17, 29, 16, 24]
  let x := (c₀ + k.high, c₁ + k.low)
  let x := inject even k.low (k₂ + 1) x
  let x := inject odd k₂ (k.high + 2) x
  let x := inject even k.high (k.low + 3) x
  let x := inject odd k.low (k₂ + 4) x
  let x := inject even k₂ (k.high + 5) x
  ⟨x.1, x.2⟩

/-- The key that is kept and the key that is used up by a draw. -/
def split (k : Generator) : Generator × Generator := (k.words 0 0, k.words 0 1)

def byte (k : Generator) : UInt8 :=
  let w := (k.words 0 1).words 0 0
  (w.high ^^^ w.low).toUInt8

def next (k : Generator) : UInt8 × Generator := (k.split.2.byte, k.split.1)

end Generator

end Chip8
