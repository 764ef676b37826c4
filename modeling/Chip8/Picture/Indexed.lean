import Chip8.Picture.Bytes

/-! # Indexed pictures

A picture of at most 128 colours as an interchange file, which lists its colours
and then names one for each pixel. The codes start anew before they would grow
beyond eight bits, so that each of them is a byte.
-/

namespace Chip8.Picture

def palette (p : Picture) : List Color :=
  p.rows.flatten.foldl (fun colors c => if c ∈ colors then colors else colors ++ [c]) []

/-- The code of a fresh start, before every 120 pixels; `starts` bounds their number. -/
def indexCodes : Nat → List UInt8 → List UInt8
  | 0, _ => []
  | starts + 1, codes =>
    if codes.isEmpty then [] else 0x80 :: codes.take 120 ++ indexCodes starts (codes.drop 120)

def lengthBlocks : Nat → List UInt8 → List UInt8
  | 0, _ => []
  | blocks + 1, bytes =>
    if bytes.isEmpty then []
    else
      let block := bytes.take 255
      UInt8.ofNat block.length :: block ++ lengthBlocks blocks (bytes.drop 255)

def interchange (p : Picture) : List UInt8 :=
  let colors := p.palette.take 128
  let pixels := p.rows.flatten.map fun c => UInt8.ofNat (colors.idxOf c)
  let codes := indexCodes (pixels.length / 120 + 1) pixels ++ [0x81]
  "GIF87a".toUTF8.toList ++ littleEndian 2 p.width ++ littleEndian 2 p.height ++ [0xF6, 0, 0] ++
  forwardRow colors ++ zeroBytes (3 * (128 - colors.length)) ++
  [0x2C] ++ zeroBytes 4 ++ littleEndian 2 p.width ++ littleEndian 2 p.height ++ [0, 7] ++
  lengthBlocks (codes.length / 255 + 1) codes ++ [0, 0x3B]

end Chip8.Picture
