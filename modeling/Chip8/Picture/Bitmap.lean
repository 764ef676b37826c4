import Chip8.Picture.Bytes

/-! # Bitmaps

A picture as a bitmap file, and as the same without the header of the file. Rows
go from the bottom to the top.
-/

namespace Chip8.Picture

def bitmapRow (row : List Color) : List UInt8 := backwardRow row ++ zeroBytes (row.length % 4)

def bitmapBody (p : Picture) : List UInt8 := p.rows.reverse.flatMap bitmapRow

/-- A bitmap without the header of the file. -/
def bareBitmap (p : Picture) : List UInt8 :=
  littleEndian 4 40 ++ littleEndian 4 p.width ++ littleEndian 4 p.height ++
  littleEndian 2 1 ++ littleEndian 2 24 ++ littleEndian 4 0 ++
  littleEndian 4 p.bitmapBody.length ++ littleEndian 4 2835 ++ littleEndian 4 2835 ++
  littleEndian 4 0 ++ littleEndian 4 0 ++ p.bitmapBody

def bitmap (p : Picture) : List UInt8 :=
  [0x42, 0x4D] ++ littleEndian 4 (14 + p.bareBitmap.length) ++ littleEndian 4 0 ++
  littleEndian 4 54 ++ p.bareBitmap

end Chip8.Picture
