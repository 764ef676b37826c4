import Chip8.Execution
import Chip8.Files
import Chip8.Log.Report
import Chip8.Picture.Imaging
import Chip8.Picture.Text

/-! # Machines

A program with the settings under which it runs. A machine is set up from a
request, whose first mistake is reported, and starts every run from the same
state.
-/

namespace Chip8

inductive Rendering where
  | rgb | ascii
  deriving DecidableEq, Repr, Inhabited

namespace Rendering

def name : Rendering → String
  | rgb => "rgb_array"
  | ascii => "ascii"

def all : List Rendering := [rgb, ascii]

def ofName? (name : String) : Option Rendering := all.find? fun r => r.name == name

end Rendering

/-- A program that is ready to run. -/
structure Machine where
  path : Option String
  program : List UInt8
  dialect : Dialect
  fps : Setting
  fps_pos : fps.atMost? 0 = some false
  seed : Setting
  rendering : Option Rendering
  scale : Setting
  scheme : Setting
  trace : Setting

structure Machine.Request where
  path : Option String := none
  data : Option (List UInt8) := none
  dialect : Dialect := {}
  fps : Setting := .number 60
  seed : Setting := .number 0
  rendering : Setting := .text "rgb_array"
  scale : Setting := .number 8
  scheme : Setting := .text "classic"
  trace : Setting := .flag false

namespace Machine

def renderingOf (name : Setting) : Except Failure (Option Rendering) :=
  match name with
  | .absent => .ok none
  | name =>
    match Rendering.ofName? name.display, name with
    | some r, .text _ => .ok (some r)
    | _, _ => .error (.unsupportedRendering name.display (Rendering.all.map Rendering.name))

/-- Sets up a machine. The program comes from a file or from the request, but not from both. -/
def setUp (r : Request) (files : Files) : Except Failure Machine := do
  if r.path.isSome == r.data.isSome then throw .ambiguousProgram
  let rendering ← renderingOf r.rendering
  match fps_pos : r.fps.atMost? 0 with
  | some false =>
    let program ← match r.path with
      | some path => files.read path
      | none => pure (r.data.getD [])
    return {
      path := r.path, program, dialect := r.dialect, fps := r.fps, fps_pos, seed := r.seed,
      rendering, scale := r.scale, scheme := r.scheme, trace := r.trace }
  | some true => throw (.nonpositiveRate r.fps)
  | none => throw .unsuitable

/-- The number of instructions in a frame, at least one. -/
def pace (m : Machine) : Except Failure Quantity :=
  match m.dialect.frequency.quantity?, m.fps.quantity? with
  | some rate, some fps => do
    return (Quantity.whole 1).max (← Failure.ofRange (rate.floorDiv? fps))
  | _, _ => .error .unsuitable

theorem pace_of_numbers {m : Machine} {rate fps : Int}
    (hr : m.dialect.frequency = .number rate) (hf : m.fps = .number fps) :
    m.pace = .ok (.whole (max 1 (rate / fps))) := by
  have hm : (if 1 < rate / fps then rate / fps else 1) = max 1 (rate / fps) := by
    split <;> omega
  simp only [pace, hr, hf, Setting.quantity?_number, Quantity.floorDiv?, Quantity.join?_whole,
    Failure.ofRange, bind, Except.bind, pure, Except.pure, Quantity.max_whole, hm]

def timesOf : Quantity → Except Failure Nat
  | .whole n => .ok n.toNat
  | .real _ => .error .unsuitable

/-- The number of instructions in a frame, which must be an integer if a frame is to be run. -/
def frameLength (m : Machine) : Except Failure Nat := do timesOf (← m.pace)

theorem frameLength_of_numbers {m : Machine} {rate fps : Int}
    (hr : m.dialect.frequency = .number rate) (hf : m.fps = .number fps) :
    m.frameLength = .ok (max 1 (rate / fps)).toNat := by
  simp only [frameLength, pace_of_numbers hr hf]
  rfl

def seedValue (m : Machine) : Except Failure Int :=
  match m.seed.whole?, m.seed with
  | some seed, _ =>
    if -0x8000000000000000 ≤ seed ∧ seed < 0x8000000000000000 then .ok seed
    else .error .seedOutOfRange
  | none, .absent => .error .missingSeed
  | none, _ => .error .unsuitable

def reset (m : Machine) : Except Failure State := do
  let seed ← m.seedValue
  Failure.ofFault ((State.initial (Generator.ofSeed seed) m.dialect).load m.program)

def settings (m : Machine) : Except Failure Settings := do
  let program := m.path.getD s!"<{m.program.length} bytes>"
  return m.dialect.settings ++
    [("rom", .text program), ("fps", m.fps), ("instructions_per_frame", .ofQuantity (← m.pace))]

inductive View where
  | picture (p : Picture)
  | text (s : String)
  | hidden

def View.print (imaging : Imaging) : View → String
  | picture p => imaging.text p
  | text s => s
  | hidden => "None"

/-- Shows the screen of a state. -/
def render (m : Machine) (imaging : Imaging) (s : State) : Except Failure View :=
  match m.rendering with
  | some .rgb => (imaging.picture m.scale m.scheme s.screen.pixels).map .picture
  | some .ascii => .ok (.text (textPicture "#" "." s.screen.pixels))
  | none => .ok .hidden

end Machine

end Chip8
