import Chip8.Picture.Bytes

/-! # Rasters

A picture in formats that list its rows: portable pixmaps, targa, tagged, paged
and measured images, surfaces, marked pixels, and images in three planes.
-/

namespace Chip8.Picture

def pixmap (p : Picture) : List UInt8 :=
  s!"P6\n{p.width} {p.height}\n255\n".toUTF8.toList ++ p.rows.flatMap forwardRow

def targa (p : Picture) : List UInt8 :=
  [0, 0, 2] ++ zeroBytes 9 ++ littleEndian 2 p.width ++ littleEndian 2 p.height ++ [24, 0x20] ++
  p.rows.flatMap backwardRow

/-- An entry of a tagged image: its tag, the size and number of its values, and a value. -/
def tagEntry (tag size count value : Nat) : List UInt8 :=
  littleEndian 2 tag ++ littleEndian 2 size ++ littleEndian 4 count ++ littleEndian 4 value

def tagged (p : Picture) : List UInt8 :=
  let body := p.rows.flatMap forwardRow
  let entries := [
    tagEntry 256 4 1 p.width, tagEntry 257 4 1 p.height, tagEntry 258 3 3 122, tagEntry 259 3 1 1,
    tagEntry 262 3 1 2, tagEntry 273 4 1 128, tagEntry 277 3 1 3, tagEntry 278 4 1 p.height,
    tagEntry 279 4 1 body.length]
  [0x49, 0x49, 42, 0] ++ littleEndian 4 8 ++ littleEndian 2 entries.length ++ entries.flatten ++
  littleEndian 4 0 ++ (List.replicate 3 (littleEndian 2 8)).flatten ++ body

def pagedByte (b : UInt8) : List UInt8 := if b < 0xC0 then [b] else [0xC1, b]

def pagedRow (row : List Color) : List UInt8 :=
  [Color.red, Color.green, Color.blue].flatMap fun component =>
    (row.map component ++ zeroBytes (row.length % 2)).flatMap pagedByte

def paged (p : Picture) : List UInt8 :=
  [10, 5, 1, 8] ++ zeroBytes 4 ++ littleEndian 2 (p.width - 1) ++ littleEndian 2 (p.height - 1) ++
  littleEndian 2 100 ++ littleEndian 2 100 ++ zeroBytes 49 ++ [3] ++
  littleEndian 2 (p.width + p.width % 2) ++ littleEndian 2 1 ++ zeroBytes 58 ++
  p.rows.flatMap pagedRow

def splitRow (row : List Color) : List UInt8 :=
  [Color.red, Color.green, Color.blue].flatMap fun component => row.map component

def measured (p : Picture) : List UInt8 :=
  let lines := "Image type: RGB image\r\n" ++
    s!"Image size (x*y): {p.width}*{p.height}\r\nFile size (no of images): 1\r\n"
  let header := lines.toUTF8.toList
  header ++ zeroBytes (511 - header.length) ++ [0x1A] ++ p.rows.reverse.flatMap splitRow

def surface (p : Picture) : List UInt8 :=
  "DDS ".toUTF8.toList ++ littleEndian 4 124 ++ littleEndian 4 0x100F ++
  littleEndian 4 p.height ++ littleEndian 4 p.width ++ littleEndian 4 (3 * p.width) ++
  zeroBytes 52 ++ littleEndian 4 32 ++ littleEndian 4 0x40 ++ zeroBytes 4 ++ littleEndian 4 24 ++
  [0, 0, 0xFF, 0, 0, 0xFF, 0, 0, 0xFF, 0, 0, 0] ++ zeroBytes 4 ++ littleEndian 4 0x1000 ++
  zeroBytes 16 ++ p.rows.flatMap backwardRow

def marked (p : Picture) : List UInt8 :=
  "qoif".toUTF8.toList ++ bigEndian 4 p.width ++ bigEndian 4 p.height ++ [3, 0] ++
  p.rows.flatten.flatMap (fun c => [0xFE, c.red, c.green, c.blue]) ++ zeroBytes 7 ++ [1]

def planar (p : Picture) : List UInt8 :=
  bigEndian 2 474 ++ [0, 1] ++ bigEndian 2 3 ++ bigEndian 2 p.width ++ bigEndian 2 p.height ++
  bigEndian 2 3 ++ bigEndian 4 0 ++ bigEndian 4 255 ++ zeroBytes 492 ++
  [Color.red, Color.green, Color.blue].flatMap fun component =>
    p.rows.reverse.flatMap fun row => row.map component

end Chip8.Picture
