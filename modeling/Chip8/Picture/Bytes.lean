import Chip8.Picture.Basic

/-! # Bytes of pictures

Numbers and colours as bytes, in the orders that picture files use.
-/

namespace Chip8

def littleEndian (count n : Nat) : List UInt8 :=
  (List.range count).map fun i => UInt8.ofNat (n >>> (8 * i))

def bigEndian (count n : Nat) : List UInt8 := (littleEndian count n).reverse

def zeroBytes (count : Nat) : List UInt8 := List.replicate count 0

def forwardRow (row : List Color) : List UInt8 := row.flatMap fun c => [c.red, c.green, c.blue]

def backwardRow (row : List Color) : List UInt8 := row.flatMap fun c => [c.blue, c.green, c.red]

end Chip8
