import Chip8.Headless
import Chip8.Setting.Resolve
import Chip8.Window.Loop

/-! # Options

The settings of the command line with their defaults, and the run that they ask
for: a window or a headless run of a program file. A setting can be left open,
and texts can refer to other settings.
-/

namespace Chip8

/-- The settings of the command line, in one table. -/
structure Options where
  root : Setting

namespace Options

def machineDefaults : Settings :=
  [("preset", .text "cowgod"), ("shift_quirk", .absent), ("load_store_quirk", .absent),
   ("jump_quirk", .absent), ("clip_sprites", .absent), ("vf_reset_quirk", .absent),
   ("instruction_frequency", .number 700), ("fps", .number 60)]

def defaults : Options where
  root := .table
    [("rom", .unset), ("mode", .text "window"), ("frames", .number 600), ("progress", .flag true),
     ("screenshot", .absent), ("scale", .number 10), ("color_scheme", .text "classic"),
     ("show_debug", .flag false), ("seed", .number 0), ("log_level", .text "INFO"),
     ("trace", .flag false), ("machine", .table machineDefaults)]

def assign (o : Options) (path : String) (value : Setting) : Except Failure Options := do
  match value.texts.find? fun text => !Node.isWellFormed text with
  | some text => throw (.malformedReference text)
  | none => return { root := ← value.update (splitPath path) o.root }

def assignAll (o : Options) (values : Settings) : Except Failure Options :=
  values.foldlM (fun o (path, value) => o.assign path value) o

def valueAt (o : Options) (container : Node) (name : String) : Except Failure Setting := do
  match ← container.child? name with
  | none => throw (.missingMember name)
  | some n =>
    if n.value = .unset then throw (.missingSetting name)
    return (← n.resolve o.root).value

def read (o : Options) (name : String) : Except Failure Setting := o.valueAt (.ofRoot o.root) name

/-! ## Runs -/

def modes : List String := ["window", "headless"]

def hasWindow (o : Options) : Except Failure Bool := do
  match ← o.read "mode" with
  | .text "window" => return true
  | .text "headless" => return false
  | v => throw (.unknownName "mode" v.display modes)

/-- The threshold of the logger; a list or a table is asked for its upper case. -/
def level (o : Options) : Except Failure Setting := do
  if (← o.read "trace").holds then return .text "DEBUG"
  match ← o.read "log_level" with
  | .list _ => throw (.missingMember "upper")
  | .table entries =>
    discard (o.valueAt ⟨.table entries, ["log_level"], [o.root]⟩ "upper")
    throw .unsuitable
  | v => return v

def logger (o : Options) (terminal : Bool) (now : Quantity) : Except Failure Log.Logger := do
  Log.Logger.ofSettings [("log_level", ← o.level)] terminal now

def machineSettings (o : Options) : Except Failure Settings := do
  match ← o.read "machine" with
  | .table entries => return entries
  | .list _ => throw .unsuitable
  | _ => throw (.notTable "machine")

def dialect (o : Options) : Except Failure (Dialect × Setting) := do
  let table ← o.machineSettings
  match table.lookup "preset", table.lookup "fps" with
  | none, _ => throw (.missingEntry "preset")
  | _, none => throw (.missingEntry "fps")
  | some preset, some fps =>
    let changes := table.filter fun entry => entry.1 ≠ "preset" ∧ entry.1 ≠ "fps"
    return (← Dialect.make preset changes, fps)

def programPath (o : Options) (directory : String) : Except Failure String := do
  match ← o.read "rom" with
  | .text name => return resolvePath directory name
  | _ => throw .unsuitable

def scheme (o : Options) : Except Failure Setting := do
  let scheme ← o.read "color_scheme"
  return if scheme.isContainer then .text scheme.display else scheme

/-- The machine that the settings describe. -/
def setUp (o : Options) (directory : String) (files : Files) (window : Bool) :
    Except Failure Machine := do
  let (dialect, fps) ← o.dialect
  let path ← o.programPath directory
  let rendering := if window then Rendering.rgb else Rendering.ascii
  Machine.setUp {
    path := some path, dialect, fps, seed := ← o.read "seed", rendering := .text rendering.name
    scale := ← o.read "scale", scheme := ← o.scheme, trace := ← o.read "trace" } files

inductive Shown where
  | headless (exit : Nat) (saved : Option Headless.Saved)
  | window (outcome : Window.Outcome)

structure Outcome where
  printed : Array String
  shown : Except Failure Shown

structure Host where
  directory : String
  files : Files
  imaging : Imaging
  terminal : Bool
  now : Quantity
  audio : Except String Nat
  measured : Setting
  font : Window.Font

def runHeadless (o : Options) (host : Host) (m : Machine) (σ : Session) : Outcome :=
  let outcome := Headless.run m {
    frames := o.read "frames", progress := o.read "progress", screenshot := o.read "screenshot"
    scale := m.scale, scheme := m.scheme, directory := host.directory } host.imaging σ
  ⟨outcome.session.journal.printed, outcome.exit.map fun exit => .headless exit outcome.saved⟩

def runWindow (o : Options) (host : Host) (m : Machine) (σ : Session)
    (script : List (List Window.Event)) : Outcome :=
  match o.read "show_debug" with
  | .error failure => ⟨σ.journal.printed, .error failure⟩
  | .ok inspect =>
    let outcome := Window.run m {
      scale := if m.scale.isContainer then .absent else m.scale, inspect := inspect.holds
      audio := host.audio, measured := host.measured, font := host.font } σ script
    ⟨outcome.session.journal.printed, .ok (.window outcome)⟩

/-- The session of a run that is about to start, with its machine and whether it has a window. -/
def prepare (o : Options) (host : Host) : Except Failure (Bool × Machine × Session) := do
  let window ← o.hasWindow
  let logger ← o.logger host.terminal host.now
  let m ← o.setUp host.directory host.files window
  let σ : Session := ⟨⟨logger, 0, #[]⟩, host.now, 0⟩
  return (window, m, σ.report (.runStart (← m.settings)))

def run (o : Options) (host : Host) (script : List (List Window.Event)) : Outcome :=
  match o.prepare host with
  | .error failure => ⟨#[], .error failure⟩
  | .ok (true, m, σ) => o.runWindow host m σ script
  | .ok (false, m, σ) => o.runHeadless host m σ

end Options

end Chip8
