import Chip8.Files
import Chip8.Picture.Imaging
import Chip8.Picture.Photograph

/-! # Picture files

The format of a picture file follows from the extension of its name. Some names
stand for formats that are known but cannot hold a colour picture, and some
files do not give the picture back that was saved in them.
-/

namespace Chip8

/-- The formats in which a picture can be saved. -/
inductive ImageFormat where
  | png | bmp | dib | gif | pcx | ppm | sgi | tga | tiff | im | dds | qoi | jpeg | jpeg2000
  | webp | avif | ico | icns | blp | pdf | eps
  deriving DecidableEq, Repr, Inhabited

namespace ImageFormat

def table : List (ImageFormat × String × List String) :=
  [(png, "PNG", ["png", "apng"]), (bmp, "BMP", ["bmp"]), (dib, "DIB", ["dib"]),
   (gif, "GIF", ["gif"]), (pcx, "PCX", ["pcx"]),
   (ppm, "PPM", ["ppm", "pgm", "pbm", "pnm", "pfm"]), (sgi, "SGI", ["bw", "rgb", "rgba", "sgi"]),
   (tga, "TGA", ["tga", "icb", "vda", "vst"]), (tiff, "TIFF", ["tif", "tiff"]),
   (im, "IM", ["im"]), (dds, "DDS", ["dds"]), (qoi, "QOI", ["qoi"]),
   (jpeg, "JPEG", ["jpg", "jpeg", "jpe", "jfif", "mpo"]),
   (jpeg2000, "JPEG2000", ["jp2", "j2k", "jpc", "jpf", "jpx", "j2c"]), (webp, "WEBP", ["webp"]),
   (avif, "AVIF", ["avif", "avifs"]), (ico, "ICO", ["ico"]), (icns, "ICNS", ["icns"]),
   (blp, "BLP", ["blp"]), (pdf, "PDF", ["pdf"]), (eps, "EPS", ["eps", "ps"])]

def name (format : ImageFormat) : String := ((table.lookup format).map Prod.fst).getD ""

def readOnly : List String :=
  ["psd", "fits", "fit", "fli", "flc", "cur", "dcx", "ftc", "ftu", "gbr", "iim", "mpg", "mpeg",
   "pcd", "pxr", "ras", "xpm"]

def colorless : List String :=
  ["xbm", "msp", "palm", "wmf", "emf", "hdf", "h5", "bufr", "grib"]

/-- What follows the last dot of a file name, in lower case; a dot at the start does not count. -/
def extension (file : String) : String :=
  let base := (file.toList.reverse.takeWhile (· != '/')).reverse.dropWhile (· == '.')
  match base.reverse.span (· != '.') with
  | (tail, _ :: _) => String.ofList (tail.reverse.map Char.toLower)
  | (_, []) => ""

def ofExtension (extension : String) : Except Failure (Option ImageFormat) :=
  match table.find? fun (_, _, extensions) => extension ∈ extensions with
  | some (format, _) => .ok (some format)
  | none =>
    if extension ∈ colorless then .ok none
    else if extension ∈ readOnly then .error .unsupportedImageFormat
    else .error .unknownImageFormat

def ofPath (path : String) : Except Failure (Option ImageFormat) := ofExtension (extension path)

def iconSides : List Nat := [16, 24, 32, 48, 64, 128, 256]

def takesEmpty (format : ImageFormat) : Bool := format = sgi || format = ico

end ImageFormat

namespace Picture

def isEmpty (p : Picture) : Bool := p.height * p.width = 0

/-- What is seen of a picture after it was saved in a format, as colours by their components. -/
def reread (p : Picture) (format : ImageFormat) : Except Failure Picture :=
  match format with
  | .jpeg => .ok p.photographed
  | .gif => .error .unsuitable
  | .pdf => .error .unreadableImage
  | .eps => .error .undrawnImage
  | .ico =>
    if ImageFormat.iconSides.any fun side => side ≤ p.height && side ≤ p.width then .ok p
    else .error .unreadableImage
  | _ => if p.isEmpty then .error .unreadableImage else .ok p

end Picture

/-- Imaging that saves a picture in the format that the name of its file asks for. -/
def Imaging.ofFiles (room : Nat → Bool) (text : Picture → String) (files : Files) : Imaging where
  room
  text
  save path p := do
    let format ← ImageFormat.ofPath path
    files.write path
    match format with
    | none => throw .unwritableImage
    | some .blp => throw .improper
    | some format => if p.isEmpty && !format.takesEmpty then throw .emptyPicture

end Chip8
