import Chip8.Failure

/-! # Pairs of settings

Settings from keys of any kind and their values. Of pairs with the same key, the
first one gives the place and the last one the value.
-/

namespace Chip8

namespace Setting

def isKey : Setting → Bool
  | list _ | table _ => false
  | _ => true

/-- Whether two values are the same key; numbers and flags are compared as numbers. -/
def sameKey (a b : Setting) : Bool :=
  match a.quantity?, b.quantity? with
  | some x, some y => x.compare? y == some .eq
  | _, _ => a = b

def pair (v : Setting) : Except Failure (Setting × Setting) := do
  let items ← match v with
    | list items => pure items
    | table entries => pure (entries.map fun entry => text entry.1)
    | text s => pure (s.toList.map fun c => text (String.singleton c))
    | _ => throw .unsuitable
  match items with
  | [key, value] => if key.isKey then return (key, value) else throw .unsuitable
  | _ => throw .improper

end Setting

namespace Settings

def assignKey (pairs : List (Setting × Setting)) (key value : Setting) :
    List (Setting × Setting) :=
  if pairs.any fun pair => pair.1.sameKey key then
    pairs.map fun pair => if pair.1.sameKey key then (pair.1, value) else pair
  else pairs ++ [(key, value)]

/-- Settings from pairs, which a value gives one after the other. -/
def ofPairs (v : Setting) : Except Failure Settings := do
  match v with
  | .table entries => return entries
  | .list items =>
    let pairs ← items.mapM Setting.pair
    return (pairs.foldl (fun known pair => assignKey known pair.1 pair.2) []).map fun pair =>
      (pair.1.display, pair.2)
  | .text "" => return []
  | .text _ => throw .improper
  | _ => throw .unsuitable

end Settings

end Chip8
