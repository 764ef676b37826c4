import Chip8.Failure

/-! # Dialects

Interpreters disagree on a few instructions. A dialect fixes each point of
disagreement and the instruction rate; presets name the common combinations, and
settings change single points. Values are kept as they are given, and a switch
is on if its value holds.
-/

namespace Chip8

/-- The points on which interpreters disagree, and the instruction rate. -/
structure Dialect where
  shift : Setting := .flag true
  transfer : Setting := .flag true
  offset : Setting := .flag false
  edge : Setting := .flag false
  logic : Setting := .flag false
  frequency : Setting := .number 700
  deriving DecidableEq, Repr, Inhabited

namespace Dialect

/-- Whether `8XY6` and `8XYE` shift `VX` in place instead of `VY` into `VX`. -/
def shiftsInPlace (d : Dialect) : Bool := d.shift.holds

/-- Whether `FX55` and `FX65` leave the index alone instead of moving it past the range. -/
def keepsIndex (d : Dialect) : Bool := d.transfer.holds

/-- Whether `BNNN` adds `VX` instead of `V0`. -/
def jumpsByX (d : Dialect) : Bool := d.offset.holds

/-- Whether sprites stop at the screen edge instead of coming back on the other side. -/
def clipsSprites (d : Dialect) : Bool := d.edge.holds

/-- Whether `8XY1`, `8XY2` and `8XY3` clear `VF`. -/
def logicClearsFlag (d : Dialect) : Bool := d.logic.holds

def ofFlags (shift transfer offset edge logic : Bool) : Dialect where
  shift := .flag shift
  transfer := .flag transfer
  offset := .flag offset
  edge := .flag edge
  logic := .flag logic

def presets : List (String × Dialect) :=
  [("cowgod", ofFlags true true false false false),
   ("cosmac", ofFlags false false false true true),
   ("chip48", ofFlags true true true true false)]

def settings (d : Dialect) : Settings :=
  [("shift_quirk", d.shift), ("load_store_quirk", d.transfer), ("jump_quirk", d.offset),
   ("clip_sprites", d.edge), ("vf_reset_quirk", d.logic), ("instruction_frequency", d.frequency)]

def change (d : Dialect) (name : String) (value : Setting) : Except Failure Dialect :=
  match name, value with
  | _, .absent => .ok d
  | "shift_quirk", v => .ok { d with shift := v }
  | "load_store_quirk", v => .ok { d with transfer := v }
  | "jump_quirk", v => .ok { d with offset := v }
  | "clip_sprites", v => .ok { d with edge := v }
  | "vf_reset_quirk", v => .ok { d with logic := v }
  | "instruction_frequency", v => .ok { d with frequency := v }
  | name, _ => .error (.unknownSetting name)

def ofPreset (name : Setting) : Except Failure Dialect :=
  match name with
  | .list _ | .table _ => .error .unsuitable
  | _ =>
    match presets.find? fun preset => name == .text preset.1 with
    | some (_, d) => .ok d
    | none => .error (.unknownName "quirk preset" name.display (presets.map Prod.fst))

/-- A preset with some points changed. -/
def make (preset : Setting) (changes : Settings) : Except Failure Dialect := do
  changes.foldlM (fun d (name, value) => d.change name value) (← ofPreset preset)

end Dialect

end Chip8
