import Chip8.Picture.Basic
import Chip8.Setting.Nested

/-! # Colours from values

Colours as users write them: a single component for a shade of grey or three of
them, in a list for all pixels or in a list for each pixel.
-/

namespace Chip8

namespace Color

def grey (shade : UInt8) : Color := ⟨shade, shade, shade⟩

def setting (c : Color) : Setting :=
  .list [.number c.red.toNat, .number c.green.toNat, .number c.blue.toNat]

/-- The colour of three components, or of one that counts three times. -/
def ofBytes? : List UInt8 → Option Color
  | [shade] => some (grey shade)
  | [red, green, blue] => some ⟨red, green, blue⟩
  | _ => none

def groups (size : Nat) : Nat → List UInt8 → List (List UInt8)
  | 0, _ => []
  | count + 1, bytes => bytes.take size :: groups size count (bytes.drop size)

def layout? : List Nat → Option (Nat × Nat)
  | [] => some (1, 1)
  | [components] => some (1, components)
  | [colors, components] => some (colors, components)
  | 1 :: shape => layout? shape
  | _ => none

/-- The colours of some pixels, one for each, from components in nested lists. -/
def spread? (shape : List Nat) (bytes : List UInt8) (pixels : Nat) : Option (List Color) := do
  let (colors, components) ← layout? shape
  let found ← (groups components colors bytes).mapM ofBytes?
  match found with
  | [color] => return List.replicate pixels color
  | colors => if colors.length = pixels then return colors else none

def ofSetting (v : Setting) (pixels : Nat) : Except Failure (List Color) := do
  let (shape, regular) := v.shape
  if !regular then throw (.raggedColor shape)
  let bytes ← v.leaves.mapM Setting.byte
  match spread? shape bytes pixels with
  | some colors => return colors
  | none => throw (.mismatchedColor shape pixels)

end Color

namespace Picture

/-- Colours a row of pixels and gives back the colours that are left for lit and dark ones. -/
def colorRow : List Bool → List Color → List Color → List Color × List Color × List Color
  | [], on, off => ([], on, off)
  | lit :: row, on, off =>
    let color := ((if lit then on else off).head?).getD (Color.grey 0)
    let (colors, rest) :=
      if lit then colorRow row (on.drop 1) off else colorRow row on (off.drop 1)
    (color :: colors, rest)

def colorRows : List (List Bool) → List Color → List Color → List (List Color)
  | [], _, _ => []
  | row :: rows, on, off =>
    let (colors, on, off) := colorRow row on off
    colors :: colorRows rows on off

/-- The picture of rows of pixels of a width, at a scale and in colours as users write them. -/
def enlarge (room : Nat → Bool) (scale on off : Setting) (width : Nat)
    (pixels : List (List Bool)) : Except Failure Picture := do
  let on ← Color.ofSetting on (pixels.flatten.count true)
  let off ← Color.ofSetting off (pixels.flatten.count false)
  return ofRows (← scaleWithin room scale pixels.length width) width (colorRows pixels on off)

/-- The picture of a screen at a scale and in colours as users write them. -/
def ofSettings (room : Nat → Bool) (scale on off : Setting) (pixels : List (List Bool)) :
    Except Failure Picture :=
  enlarge room scale on off (pixels.head?.getD []).length pixels

end Picture

end Chip8
