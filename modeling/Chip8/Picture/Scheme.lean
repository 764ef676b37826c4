import Chip8.Picture.Basic

/-! # Colour schemes

Named pairs of colours for lit and dark pixels.
-/

namespace Chip8

structure Scheme where
  on : Color
  off : Color
  deriving DecidableEq, Repr, Inhabited

namespace Scheme

def named : List (String × Scheme) :=
  [("classic", ⟨⟨0, 255, 0⟩, ⟨0, 0, 0⟩⟩),
   ("amber", ⟨⟨255, 176, 0⟩, ⟨0, 0, 0⟩⟩),
   ("white", ⟨⟨255, 255, 255⟩, ⟨0, 0, 0⟩⟩),
   ("blue", ⟨⟨0, 255, 255⟩, ⟨0, 0, 64⟩⟩),
   ("retro", ⟨⟨255, 255, 0⟩, ⟨64, 0, 64⟩⟩)]

def find (name : String) : Except Failure Scheme :=
  match named.lookup name with
  | some scheme => .ok scheme
  | none => .error (.unknownName "color scheme" name (named.map Prod.fst))

/-- The scheme that a setting names; a list or a table is no name. -/
def ofSetting : Setting → Except Failure Scheme
  | .text name => find name
  | .list _ | .table _ => .error .unsuitable
  | v => .error (.unknownName "color scheme" v.display (named.map Prod.fst))

end Scheme

end Chip8
