import Chip8.Picture.Scheme
import Chip8.Screen.Basic
import Chip8.Setting.Number
import Chip8.Text.Decimal

/-! # The canvas

The calls that a window makes on its screen and its loudspeaker, and the drawing
of a frame by such calls. Places and sizes are products of a scale, which is taken
as a user gives it.
-/

namespace Chip8.Window

/-- A call made while a window is set up or closed. -/
inductive Setup where
  | init
  | mode (width height : Setting)
  | caption (text : String)
  | mixer (rate : Nat) (size : Int)
  | sound (channels : Nat)
  | quit
  deriving DecidableEq, Repr

/-- A call made during a frame. -/
inductive Call where
  | clock (fps : Setting)
  | play (loops : Int)
  | stop
  | fill (color : Color)
  | rect (color : Color) (x y width height : Setting)
  | overlay (width height alpha : Nat) (color : Color) (x y : Nat)
  | text (text : String) (size : Nat) (color : Color) (x y : Setting)
  deriving DecidableEq, Repr

namespace Tone

def rate : Nat := 44100

def frequency : Nat := 440

/-- A sample of the square wave: high in the first half of each period. -/
def sample (i : Nat) : Int := if 2 * frequency * i / rate % 2 = 0 then 8000 else -8000

end Tone

/-- A font of the overlay: how many pixels wide a text is, and how high a line. -/
structure Font where
  width : String → Nat
  height : Nat

def Font.fixed (width height : Nat) : Font := ⟨fun text => text.length * width, height⟩

def litPlaces (s : Screen) : List (Nat × Nat) :=
  (List.range 32).flatMap fun r => ((List.range 64).filter (s.lit r)).map fun c => (r, c)

def square (scale : Setting) (color : Color) (r c : Nat) : Except Failure Call := do
  return .rect color (← (Setting.number c).product scale) (← (Setting.number r).product scale)
    scale scale

@[simp] theorem square_number (scale : Int) (color : Color) (r c : Nat) :
    square (.number scale) color r c = .ok (.rect color (.number (c * scale)) (.number (r * scale))
      (.number scale) (.number scale)) := rfl

def squares (scale : Setting) (color : Color) (s : Screen) : Except Failure (List Call) :=
  (litPlaces s).mapM fun (r, c) => square scale color r c

theorem squares_number (scale : Int) (color : Color) (s : Screen) :
    squares (.number scale) color s = .ok ((litPlaces s).map fun (r, c) =>
      .rect color (.number (c * scale)) (.number (r * scale)) (.number scale) (.number scale)) := by
  simp only [squares, square_number]
  induction litPlaces s with
  | nil => rfl
  | cons place places ih =>
    rw [List.mapM_cons, ih]
    rfl

def paint (scale : Setting) (scheme : Scheme) (s : Screen) : Except Failure (List Call) := do
  return .fill scheme.off :: (← squares scale scheme.on s)

def overlay (font : Font) (lines : List String) : List Call :=
  let width := (lines.map font.width).foldl max 0
  Call.overlay (width + 16) (lines.length * font.height + 8) 100 ⟨0, 0, 0⟩ 5 5 ::
    lines.mapIdx fun i line =>
      .text line 18 ⟨255, 255, 255⟩ (.number 13) (.number (9 + i * font.height : Nat))

def banner (scale : Setting) (text : String) : Except Failure Call := do
  let height ← ((Setting.number 32).product scale >>= Setting.quantity)
  return .text text 24 ⟨255, 255, 0⟩ (.number 10) (.ofQuantity (height.plus (-30)))

end Chip8.Window
