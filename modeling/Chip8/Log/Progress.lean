import Chip8.Log.Meter

/-! # Progress

A counter of emulated frames with a description. It is shown when it starts, now
and then while it counts, and when it ends, and how it looks is up to options.
A counter that cannot be shown is refused.
-/

namespace Chip8.Log

/-- A progress counter. -/
structure Progress where
  total : Setting
  description : Setting
  unit : String := "frame"
  count : Setting
  shown : Setting
  options : Settings

namespace Progress

def defaults : Settings :=
  [("iterable", .absent), ("leave", .flag true), ("file", .absent), ("ncols", .absent),
   ("mininterval", .real (0.1 : Float).toBits), ("maxinterval", .number 10), ("miniters", .absent),
   ("ascii", .absent), ("disable", .flag false), ("unit_scale", .flag false),
   ("dynamic_ncols", .flag false), ("smoothing", .real (0.3 : Float).toBits),
   ("bar_format", .absent), ("initial", .number 0), ("position", .absent), ("postfix", .absent),
   ("unit_divisor", .number 1000), ("write_bytes", .flag false), ("lock_args", .absent),
   ("nrows", .absent), ("colour", .absent), ("delay", .number 0), ("gui", .flag false)]

def optionOf (options : Settings) (name : String) : Setting :=
  ((options ++ defaults).lookup name).getD .absent

def look (p : Progress) (name : String) : Setting :=
  let value := optionOf p.options name
  match name, value with
  | "ncols", v | "nrows", v => if (optionOf p.options "dynamic_ncols").holds then .absent else v
  | "ascii", .absent => .flag (optionOf p.options "file" != .absent)
  | "miniters", .absent | "mininterval", .absent | "smoothing", .absent => .number 0
  | _, v => v

/-! ## Descriptions -/

def groupedTotal (total : Setting) : Except Failure String :=
  match total.whole?, total with
  | some n, _ => .ok (Text.grouped n)
  | none, .real bits => .ok (Text.groupedReal (Float.ofBits bits))
  | none, .text _ => .error .notGrouped
  | none, _ => .error .unsuitable

def describe (total : Setting) : Option Setting → Except Failure Setting
  | none | some .absent => return .text ("Emulating (" ++ (← groupedTotal total) ++ " frames)")
  | some v => .ok (if v.holds then v else .text "")

def totalOf (total iterable : Setting) : Setting :=
  match total, iterable with
  | .absent, .text s => .number s.length
  | .absent, .list items => .number items.length
  | .absent, .table entries => .number entries.length
  | .real bits, _ => if Float.ofBits bits == 1 / 0 then .absent else total
  | _, _ => total

def checkOptions (names : List String) : Except Failure Unit :=
  match names.filter fun name => (defaults.lookup name).isNone with
  | [] => .ok ()
  | name :: rest =>
    if "nested" ∈ name :: rest then .error (.retiredProgressOption "nested")
    else .error (.unknownProgressOption name)

def isHidden (options : Settings) : Bool :=
  match optionOf options "disable" with
  | .absent => optionOf options "file" == .absent
  | v => v.holds

def checkRemarks (remarks : Setting) : Except Failure Unit :=
  match remarks with
  | .table entries =>
    if entries.any fun (name, _) => name ∈ ["self", "refresh"] then .ok ()
    else entries.forM fun (_, v) =>
      match v with
      | .number i => (Failure.ofRange (Quantity.whole i).toFloat?).map fun _ => ()
      | _ => .ok ()
  | _ => .ok ()

/-! ## Showing -/

def checkFile (p : Progress) : Except Failure Unit :=
  if p.look "file" != .absent then .error (.missingPart "write")
  else if (p.look "write_bytes").holds then .error .unsuitable
  else .ok ()

def line (p : Progress) : Except Failure Quantity :=
  match p.look "position" with
  | .absent => .ok (.whole 0)
  | v => do
    match ← v.quantity with
    | .whole i => return .whole i.natAbs
    | .real bits => return .ofFloat (Float.ofBits bits).abs

def checkMove (p : Progress) (line : Quantity) : Except Failure Unit :=
  if line.isZero then .ok ()
  else
    match line with
    | .whole _ => p.checkFile
    | .real _ => .error .unsuitable

def lineCount (p : Progress) : Except Failure Quantity :=
  let lines := p.look "nrows"
  if lines.holds then lines.quantity else .ok (.whole 20)

def checkLine (p : Progress) (line : Quantity) (writing : Except Failure Unit) :
    Except Failure Unit := do
  let lines ← p.lineCount
  let last ← Failure.ofRange (lines.sub? (.whole 1))
  if last.le line then
    if lines.le line then return
    p.checkMove line
  else
    p.checkMove line
    writing
  p.checkFile

def meter (p : Progress) (elapsed : Option Float) : Meter where
  count := p.count
  total := p.total
  initial := p.look "initial"
  elapsed
  description := p.description
  unit := p.unit
  look := p.look

def checkWait (arguments : Setting) : Except Failure Unit := do
  match arguments with
  | .list [wait] => discard wait.whole
  | .list [wait, seconds] =>
    let wait ← wait.whole
    let seconds ← seconds.quantity
    let forever := seconds.compare? (.whole (-1)) == some .eq
    if !forever && (seconds.lt (.whole 0) || wait = 0) then throw .improper
  | _ => throw .unsuitable

def refresh (p : Progress) (elapsed : Option Float) : Except Failure Unit := do
  let arguments := p.look "lock_args"
  if arguments.holds then checkWait arguments
  else
    let line ← p.line
    if (p.look "gui").holds then
      discard p.lineCount
      throw (.retiredProgressOption "gui")
    p.checkLine line do
      discard (p.look "smoothing").quantity
      (p.meter elapsed).check

def moment : Float := 0.00002

/-! ## Counting -/

/-- Opens a counter. The total and the unit cannot be chosen by options. -/
def start (total : Setting) (description : Option Setting) (options : Settings) :
    Except Failure Progress := do
  let named := options.lookup "desc"
  if (options.lookup "n").isSome ∨ (description.isSome ∧ named.isSome) then throw .unsuitable
  let description ← describe total (description.or named)
  let options := options.filter fun entry => entry.1 ∉ ["total", "unit", "desc"]
  if isHidden options then throw .hiddenProgress
  checkOptions (options.map Prod.fst)
  checkRemarks (optionOf options "postfix")
  let initial := optionOf options "initial"
  let p : Progress := {
    total := totalOf total (optionOf options "iterable"), description, options, count := initial
    shown := initial }
  discard p.line
  if !(p.look "gui").holds then
    if (← (p.look "delay").quantity).le (.whole 0) then p.refresh none
  return p

def advance (p : Progress) (step : Setting) : Except Failure Progress := do
  let n ← step.quantity
  let negative := n.lt (.whole 0)
  let shown ← if negative then Failure.ofRange ((← p.shown.quantity).add? n) else p.shown.quantity
  let count ← Failure.ofRange ((← p.count.quantity).add? n)
  let p := { p with count := .ofQuantity count, shown := .ofQuantity shown }
  let change ← Failure.ofRange (count.sub? shown)
  if (← (p.look "miniters").quantity).le change then
    let interval ← (p.look "mininterval").quantity
    if interval.le (.ofFloat 0.000001) then
      if (← (p.look "delay").quantity).le (.whole 0) then
        p.refresh (some moment)
        return { p with shown := p.count }
  return p

def finish (p : Progress) : Except Failure Unit := do
  let line ← p.line
  let windowed := (p.look "gui").holds
  if !windowed then discard p.lineCount
  let delay ← (p.look "delay").quantity
  discard (Failure.ofRange delay.toFloat?)
  if (Quantity.whole 0).lt delay || windowed then return
  p.checkFile
  let leaves := match p.look "leave" with
    | .absent => line.isZero
    | v => v.holds
  if leaves then p.checkLine (.whole 0) (p.meter (some moment)).check
  else p.checkLine line (.ok ())

/-- A counter of frames from its start to its end. -/
def ofFrames (total : Setting) : Except Failure Progress := start total none []

end Progress

end Chip8.Log
