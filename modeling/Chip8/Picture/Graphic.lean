import Chip8.Picture.Bytes

/-! # Portable network graphics

A picture with 24 bits per pixel and a check behind each chunk. Its rows are
stored without compression.
-/

namespace Chip8.Picture

def crcBit (c : UInt32) : UInt32 := if c &&& 1 = 1 then (c >>> 1) ^^^ 0xEDB88320 else c >>> 1

def crcByte (c : UInt32) (b : UInt8) : UInt32 := Nat.repeat crcBit 8 (c ^^^ b.toUInt32)

def crc (bytes : List UInt8) : UInt32 := bytes.foldl crcByte 0xFFFFFFFF ^^^ 0xFFFFFFFF

def checksum (bytes : List UInt8) : Nat :=
  let (a, b) := bytes.foldl (fun (a, b) byte =>
    let a := (a + byte.toNat) % 65521
    (a, (b + a) % 65521)) (1, 0)
  65536 * b + a

/-- Bytes in blocks of at most 65535, each stored as it is; `blocks` bounds their number. -/
def storedBlocks : Nat → List UInt8 → List UInt8
  | 0, _ => []
  | blocks + 1, bytes =>
    let block := bytes.take 65535
    let rest := bytes.drop 65535
    (if rest.isEmpty then 1 else 0) :: littleEndian 2 block.length ++
      littleEndian 2 (65535 - block.length) ++ block ++
      (if rest.isEmpty then [] else storedBlocks blocks rest)

def chunk (name : String) (body : List UInt8) : List UInt8 :=
  let named := name.toUTF8.toList ++ body
  bigEndian 4 body.length ++ named ++ bigEndian 4 (crc named).toNat

/-- The portable network graphic of a picture. -/
def graphic (p : Picture) : List UInt8 :=
  let raw := p.rows.flatMap fun row => 0 :: forwardRow row
  let blocks := storedBlocks (raw.length / 65535 + 1) raw
  let stream := [0x78, 0x01] ++ blocks ++ bigEndian 4 (checksum raw)
  [0x89, 0x50, 0x4E, 0x47, 0x0D, 0x0A, 0x1A, 0x0A] ++
  chunk "IHDR" (bigEndian 4 p.width ++ bigEndian 4 p.height ++ [8, 2, 0, 0, 0]) ++
  chunk "IDAT" stream ++ chunk "IEND" []

end Chip8.Picture
