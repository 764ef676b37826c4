import Chip8.Setting.Integer
import Chip8.Setting.Layout
import Chip8.Setting.Number
import Chip8.Text.Uppercase

/-! # Meters

What a progress counter shows at a moment: how much is done, how fast, and a bar.
The text is not kept. What matters is whether it can be made, as most values
that it is made of are taken as a user gives them.
-/

namespace Chip8.Log

/-- The values that a meter shows. -/
structure Meter where
  count : Setting
  total : Setting
  initial : Setting
  /-- The seconds since the start; none have passed when the meter is shown first. -/
  elapsed : Option Float
  description : Setting
  unit : String
  look : String → Setting

namespace Meter

def openTotal (m : Meter) : Except Failure Setting :=
  if m.total.holds then do
    let bound ← Failure.ofRange ((← m.total.quantity).add? (.ofFloat 0.5))
    return if bound.le (← m.count.quantity) then .absent else m.total
  else .ok m.total

def isUnit (scale : Setting) : Bool :=
  scale.quantity?.any fun q => q.compare? (.whole 1) == some .eq

def scaled (m : Meter) : Except Failure Meter := do
  let total ← m.openTotal
  let scale := m.look "unit_scale"
  if scale.holds && !isUnit scale then
    let total ← if total.holds then total.product scale else pure total
    return { m with total, count := ← m.count.product scale }
  else return { m with total }

def rate? (m : Meter) : Except Failure (Option Float) :=
  match m.elapsed with
  | none => .ok none
  | some elapsed => do
    let done ← Failure.ofRange ((← m.count.quantity).sub? (← m.initial.quantity))
    return some (← Failure.ofRange (done.ratio? (.ofFloat elapsed)))

def checkShort (divisor : Setting) : Nat → Quantity → Except Failure Unit
  | 0, _ => .ok ()
  | steps + 1, q =>
    if (Quantity.ofFloat (-999.5)).lt q && q.lt (.ofFloat 999.5) then .ok ()
    else do
      let d ← divisor.quantity
      if d.isZero then throw .divisionByZero
      checkShort divisor steps (.ofFloat (← Failure.ofRange (q.ratio? d)))

def checkCounts (m : Meter) : Except Failure Unit := do
  if isUnit (m.look "unit_scale") then
    checkShort (m.look "unit_divisor") 8 (← m.count.quantity)
    if m.total != .absent then checkShort (m.look "unit_divisor") 8 (← m.total.quantity)

def remaining (m : Meter) (rate : Option Float) : Except Failure Float :=
  match rate with
  | some rate =>
    if rate != 0 && m.total.holds then do
      let left ← Failure.ofRange ((← m.total.quantity).sub? (← m.count.quantity))
      let seconds ← Failure.ofRange (left.ratio? (.ofFloat rate))
      if seconds.isNaN then throw .improper
      if seconds.isInf then throw .valueOutOfRange
      return seconds
    else .ok 0
  | none => .ok 0

def fraction (m : Meter) : Except Failure Float := do
  let total ← m.total.quantity
  if total.isZero then throw .divisionByZero
  Failure.ofRange ((← m.count.quantity).ratio? total)

/-! ## Bars -/

def colorNames : List String :=
  ["BLACK", "RED", "GREEN", "YELLOW", "BLUE", "MAGENTA", "CYAN", "WHITE"]

def isHexPair (cs : List Char) : Bool :=
  let isHex (c : Char) : Bool := c.isDigit || ('a' ≤ c.toLower && c.toLower ≤ 'f')
  match cs with
  | [a, b] => isHex b && (isHex a || a == '+' || a == '-' || Text.isBlank a) ||
      isHex a && Text.isBlank b
  | _ => false

def checkColor (color : Setting) : Except Failure Unit :=
  match color with
  | .text s =>
    match s.toList with
    | ['#', a, b, c, d, e, f] =>
      if Text.upper s ∈ colorNames ∨ [[a, b], [c, d], [e, f]].all isHexPair then .ok ()
      else .error .improper
    | _ => .ok ()
  | _ => .ok ()

def checkMarks (marks : Setting) : Except Failure Unit :=
  match marks with
  | .text s => if s.length = 1 then .error .divisionByZero else .ok ()
  | .list items =>
    if items.length = 1 then .error .divisionByZero
    else if items.all fun v => v matches .text _ then .ok ()
    else .error .unsuitable
  | .table entries =>
    if entries.length = 1 then .error .divisionByZero else .error (.unknownField "-1")
  | _ => .error .unsuitable

def plainMarks : Setting := .text " #"

/-- Refuses a bar in a form: a letter for its marks behind a number for its length. -/
def checkBar (marks : Setting) (length : Int) (form : List Char) : Except Failure Unit := do
  let named := form.getLast?.any fun c => c.toLower ∈ ['a', 'u', 'b']
  let digits := if named then form.dropLast else form
  let length ← match digits, Setting.integerOfText (String.ofList digits) with
    | [], _ => pure length
    | _, .ok n => pure n
    | _, .error _ => throw .improper
  if 0x8000000000000000 ≤ length then throw .valueOutOfRange
  checkMarks (if named then plainMarks else marks)

def barLength (columns : Setting) (text : List Char) : Except Failure Int :=
  if columns.holds then return max 1 ((← columns.whole) - text.length) else .ok 10

/-! ## Layouts -/

def fullLayout : String := "\x7bl_bar\x7d\x7bbar\x7d\x7br_bar\x7d"

def layout (m : Meter) : Except Failure String :=
  let narrow := match m.look "ascii" with
    | .flag b => b
    | .text s => s.toList.all fun c => c.toNat < 256
    | _ => false
  match m.look "bar_format" with
  | .text s => .ok s
  | v => if narrow then .error (.missingPart "format") else .ok v.display

def slots (m : Meter) (rate : Option Float) (remaining : Float) (percentage : Setting)
    (name : String) : Option Slot :=
  let real (x : Float) : Setting := .real x.toBits
  let perUnit := rate.bind fun r => if r != 0 then some (1 / r) else none
  let number (x : Option Float) : Setting := x.elim .absent real
  match name with
  | "bar" => some .bar
  | "eta" => some .moment
  | "n" => some (.value m.count)
  | "total" => some (.value m.total)
  | "n_fmt" => some (.value (.text m.count.display))
  | "total_fmt" => some (.value (.text m.total.display))
  | "elapsed" | "remaining" => some (.value (.text "00:00"))
  | "elapsed_s" => some (.value (m.elapsed.elim (.number 0) real))
  | "remaining_s" =>
    some (.value (if rate.isSome && m.total.holds then real remaining else .number 0))
  | "desc" => some (.value (if m.description.holds then m.description else .text ""))
  | "unit" => some (.value (.text m.unit))
  | "rate" => some (.value (number ((perUnit.filter (1 < ·)).or rate)))
  | "rate_noinv" => some (.value (number rate))
  | "rate_inv" => some (.value (number perUnit))
  | "rate_fmt" | "rate_noinv_fmt" => some (.value (.text ("?" ++ m.unit ++ "/s")))
  | "rate_inv_fmt" => some (.value (.text ("?s/" ++ m.unit)))
  | "l_bar" | "r_bar" => some (.value (.text "|"))
  | "postfix" =>
    match m.look "postfix" with
    | .text s => some (.value (.text s))
    | v => some (.value (if v.holds then v else .text ""))
  | "percentage" => some (.value percentage)
  | "ncols" | "nrows" | "unit_divisor" | "colour" => some (.value (m.look name))
  | _ => none

def checkLayout (m : Meter) (rate : Option Float) (remaining : Float) (percentage marks : Setting)
    (layout : String) : Except Failure Unit := do
  let layout := layout.toList
  let (text, bars) ← fillLayout (m.slots rate remaining percentage) 2 (layout.length + 1) layout
  if !bars.isEmpty then
    let length ← barLength (m.look "ncols") text
    checkColor (m.look "colour")
    bars.forM (checkBar marks length)

def marks (m : Meter) : Setting :=
  match m.look "ascii" with
  | .flag true => plainMarks
  | v => if v.holds then v else plainMarks

def check (m : Meter) : Except Failure Unit := do
  let m ← m.scaled
  let rate ← m.rate?
  m.checkCounts
  let remaining ← m.remaining rate
  if m.description.holds && !(m.description matches .text _) then throw .unsuitable
  let wanted := (m.look "bar_format").holds
  if m.total.holds then
    let percentage := 100 * (← m.fraction)
    let hidesBar := (m.look "ncols").quantity?.any Quantity.isZero
    if !hidesBar then
      let layout ← if wanted then m.layout else pure fullLayout
      let layout := if m.description.holds then layout else layout.replace "\x7bdesc\x7d: " ""
      m.checkLayout rate remaining (.real percentage.toBits) m.marks layout
  else if wanted then
    m.checkLayout rate remaining (.number 0) plainMarks (← m.layout)

end Meter

end Chip8.Log
