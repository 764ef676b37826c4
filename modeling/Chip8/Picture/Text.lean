import Chip8.Failure

/-! # Text pictures

A screen as lines of text, one cell of text for each pixel.
-/

namespace Chip8

def textRow (on off : String) (row : List Bool) : String :=
  String.join (row.map fun lit => if lit then on else off)

/-- The lines of a screen, separated by line feeds. -/
def textPicture (on off : String) (pixels : List (List Bool)) : String :=
  "\n".intercalate (pixels.map (textRow on off))

/-- The cell that a setting gives for some pixels; if one of them is there, it must be a text. -/
def cellOf (mark : Setting) (lit : Bool) (pixels : List (List Bool)) : Except Failure String :=
  match mark with
  | .text s => .ok s
  | _ => if pixels.any (·.contains lit) then .error .unsuitable else .ok ""

def textPictureWith (cells : Settings) (pixels : List (List Bool)) : Except Failure String := do
  cells.checkNames ["on", "off"]
  let on ← cellOf ((cells.lookup "on").getD (.text "#")) true pixels
  let off ← cellOf ((cells.lookup "off").getD (.text ".")) false pixels
  return textPicture on off pixels

end Chip8
