import Chip8.Picture.Bitmap
import Chip8.Picture.File
import Chip8.Picture.Graphic
import Chip8.Picture.Indexed
import Chip8.Picture.Raster

/-! # Encoded pictures

The bytes of a picture in the formats that keep its pixels as they are and can be
written without compression.
-/

namespace Chip8.Picture

/-- The bytes of a picture in a format. -/
def encode? (p : Picture) : ImageFormat → Option (List UInt8)
  | .png => some p.graphic
  | .bmp => some p.bitmap
  | .dib => some p.bareBitmap
  | .gif => some p.interchange
  | .pcx => some p.paged
  | .ppm => some p.pixmap
  | .sgi => some p.planar
  | .tga => some p.targa
  | .tiff => some p.tagged
  | .im => some p.measured
  | .dds => some p.surface
  | .qoi => some p.marked
  | .jpeg | .jpeg2000 | .webp | .avif | .ico | .icns | .blp | .pdf | .eps => none

end Chip8.Picture
