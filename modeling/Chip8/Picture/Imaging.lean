import Chip8.Picture.Color
import Chip8.Picture.Scheme

/-! # Imaging

What is left to others when a screen becomes a picture: the room that the picture
needs, its text on a console, and the file in which it is saved.
-/

namespace Chip8

/-- How pictures are held, printed and saved. -/
structure Imaging where
  /-- Whether there is room for so many bytes. -/
  room : Nat → Bool
  text : Picture → String
  /-- Saves a picture under a path. -/
  save : String → Picture → Except Failure Unit

namespace Imaging

/-- The picture of a screen in the colours of a scheme. -/
def picture (imaging : Imaging) (scale scheme : Setting) (pixels : List (List Bool)) :
    Except Failure Picture := do
  let scheme ← Scheme.ofSetting scheme
  Picture.ofSettings imaging.room scale scheme.on.setting scheme.off.setting pixels

def saveScreen (imaging : Imaging) (path : String) (scale scheme : Setting)
    (pixels : List (List Bool)) : Except Failure Picture := do
  let picture ← imaging.picture scale scheme pixels
  imaging.save path picture
  return picture

end Imaging

end Chip8
