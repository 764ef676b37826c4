import Chip8.Failure
import Chip8.Text.Integer
import Chip8.Text.Layout

/-! # Layouts of settings

Layouts whose places are filled with values under names. A place can also be
meant for a moment of time, which takes every form, or for a bar, which is drawn
after everything else is known.
-/

namespace Chip8

inductive Slot where
  | value (v : Setting)
  | moment
  | bar
  deriving Repr

namespace Slot

def position? (key : List Char) : Option Nat :=
  if key.isEmpty then none else (key.mapM Text.digitValue?).map Text.ofDigits

def itemOf (v : Setting) (key : List Char) : Except Failure Setting :=
  match v, position? key with
  | .text s, some i =>
    match s.toList[i]? with
    | some c => .ok (.text (String.singleton c))
    | none => .error (.missingField i)
  | .list items, some i =>
    match items[i]? with
    | some v => .ok v
    | none => .error (.missingField i)
  | .table entries, none =>
    match entries.lookup (String.ofList key) with
    | some v => .ok v
    | none => .error (.unknownField (String.ofList key))
  | .table _, some _ => .error (.unknownField (String.ofList key))
  | _, _ => .error .unsuitable

/-- Follows the rest of a name into a slot; `steps` bounds the number of its parts. -/
def follow (slot : Slot) : Nat → List Char → Except Failure Slot
  | 0, _ => .ok slot
  | _, [] => .ok slot
  | _ + 1, '.' :: cs =>
    let part := cs.takeWhile fun c => c != '.' && c != '['
    if part.isEmpty then .error .malformedLayout
    else .error (.missingPart (String.ofList part))
  | steps + 1, '[' :: cs => do
    let key := cs.takeWhile (· != ']')
    if key.isEmpty then throw .malformedLayout
    match slot with
    | value v => follow (.value (← itemOf v key)) steps ((cs.dropWhile (· != ']')).drop 1)
    | _ => throw .unsuitable
  | _ + 1, _ :: _ => .error .malformedLayout

def checkForm (v : Setting) (form : List Char) : Except Failure Unit :=
  let check (fits : Text.Form → Bool) : Except Failure Unit :=
    if (Text.Form.ofChars? form).any fits then .ok () else .error .malformedLayout
  if form.isEmpty then .ok ()
  else
    match v with
    | .text _ => check Text.Form.fitsText
    | .flag _ | .number _ => check (Text.Form.fitsNumber · true)
    | .real _ => check (Text.Form.fitsNumber · false)
    | _ => .error .unsuitable

def fill (slot : Slot) (form : List Char) : Except Failure (List Char × List (List Char)) :=
  match slot with
  | value v => (checkForm v form).map fun _ => (v.display.toList, [])
  | moment => .ok ([], [])
  | bar => .ok ([], [form])

def convert (slot : Slot) : Option Char → Except Failure Slot
  | none => .ok slot
  | some c =>
    if c ∈ ['r', 's', 'a'] then
      match slot with
      | value v => .ok (.value (.text (if c = 's' then v.display else v.quoted)))
      | _ => .ok (.value (.text ""))
    else .error .malformedLayout

def named (slots : String → Option Slot) (name : List Char) : Except Failure Slot := do
  let first := name.takeWhile fun c => c != '.' && c != '['
  match first, position? first, slots (String.ofList first) with
  | [], _, _ => throw (.missingField 0)
  | _, some i, _ => throw (.missingField i)
  | _, none, none => throw (.unknownField (String.ofList first))
  | _, none, some slot => slot.follow name.length (name.drop first.length)

end Slot

/-- Fills a layout: its plain text, and the forms of its bars. A form can itself have places, but
those of its places cannot, as `depth` says; `length` bounds the number of places. -/
def fillLayout (slots : String → Option Slot) (depth length : Nat) (layout : List Char) :
    Except Failure (List Char × List (List Char)) :=
  match depth, length with
  | 0, _ => .error .malformedLayout
  | _, 0 => .ok ([], [])
  | depth + 1, length + 1 =>
    match Text.nextPlace layout with
    | .malformed => .error .malformedLayout
    | .stop before => .ok (before, [])
    | .place before p rest => do
      let slot ← (← Slot.named slots p.name).convert p.conversion
      let (form, inner) ←
        if p.form.contains '\x7b' then fillLayout slots depth (length + 1) p.form
        else pure (p.form, [])
      let (text, bars) ← slot.fill form
      let (after, more) ← fillLayout slots (depth + 1) length rest
      return (before ++ text ++ after, inner ++ bars ++ more)
termination_by (depth, length)

end Chip8
