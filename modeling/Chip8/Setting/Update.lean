import Chip8.Failure
import Chip8.Setting.Path
import Chip8.Text.Integer

/-! # Updates

Giving a value a place in nested tables and lists. What stands in the way is
replaced by tables, and a table that is put where one stands already is merged
with it.
-/

namespace Chip8.Setting

/-- The value that leaves a setting open. -/
def unset : Setting := .text "???"

def isContainer : Setting → Bool
  | list _ | table _ => true
  | _ => false

mutual

def texts : Setting → List String
  | text s => [s]
  | list items => itemTexts items
  | table entries => entryTexts entries
  | _ => []

def itemTexts : List Setting → List String
  | [] => []
  | v :: items => v.texts ++ itemTexts items

def entryTexts : List (String × Setting) → List String
  | [] => []
  | (_, v) :: entries => v.texts ++ entryTexts entries

end

def indexOf? (key : String) : Option Int :=
  (Text.integer? key).map fun (negative, digits) =>
    let n : Int := Text.ofDigits digits
    if negative then -n else n

def placeOf? (items : List Setting) (index : Int) : Option Nat :=
  let i := if index < 0 then index + items.length else index
  if 0 ≤ i ∧ i < items.length then some i.toNat else none

mutual

/-- Merges a value into a list or a table. A list is replaced; in a table, open values change
nothing. -/
def merge (old : Setting) : Setting → Except Failure Setting
  | table entries =>
    match old with
    | table known => (mergeEntries known entries).map table
    | _ => .error (.mismatchedTable "")
  | list items =>
    match old with
    | list _ => .ok (list items)
    | _ => .error (.mismatchedTable "")
  | v => .ok (if v = unset then old else v)

def mergeEntries (known : Settings) : List (String × Setting) → Except Failure Settings
  | [] => .ok known
  | (name, v) :: entries => do
    let merged ← match known.lookup name with
      | some old => if v.isContainer && !old.isContainer then pure v else merge old v
      | none => pure v
    mergeEntries (known.assign name merged) entries

end

def put (old : Option Setting) (v : Setting) : Except Failure Setting :=
  match old with
  | some old => if old.isContainer && v.isContainer then merge old v else .ok v
  | none => .ok v

def step (name : String) (old : Option Setting) : Except Failure Setting :=
  match old with
  | some v =>
    if v = unset then .error (.missingSetting name)
    else .ok (if v.isContainer then v else table [])
  | none => .ok (table [])

def change (container : Setting) (key : String) (last : Bool)
    (f : Option Setting → Except Failure Setting) : Except Failure Setting :=
  match container with
  | table entries => do return table (Settings.assign entries key (← f (entries.lookup key)))
  | list items =>
    match indexOf? key with
    | none => .error (if last then .improper else .unsuitable)
    | some index =>
      match placeOf? items index with
      | none => .error (.missingItem index)
      | some i => do
        let old := if last || 0 ≤ index then items[i]? else none
        return list (items.set i (← f old))
  | _ => .error .unsuitable

/-- Gives a value a place behind some names. -/
def update (v : Setting) : List String → Setting → Except Failure Setting
  | [], container => .ok container
  | [name], container => container.change name true (put · v)
  | name :: names, container =>
    container.change name false fun old => do update v names (← step name old)

end Chip8.Setting
