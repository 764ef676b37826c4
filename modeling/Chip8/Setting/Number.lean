import Chip8.Failure

/-! # Settings as numbers

The numbers that values stand for, where nothing else will do, and the products
of values, which repeat a text or a list as often as an integer says.
-/

namespace Chip8.Setting

def quantity (v : Setting) : Except Failure Quantity :=
  match v.quantity? with
  | some q => .ok q
  | none => .error .unsuitable

def whole (v : Setting) : Except Failure Int :=
  match v.whole? with
  | some i => .ok i
  | none => .error .unsuitable

@[simp] theorem quantity_number (i : Int) : (number i).quantity = .ok (.whole i) := rfl

def repeated {α : Type} (count : Int) (items : List α) : Except Failure (List α) :=
  if 0x8000000000000000 ≤ count then .error .valueOutOfRange
  else .ok (List.replicate count.toNat items).flatten

def repeatedValue (count : Int) (v : Setting) : Except Failure Setting := do
  match v with
  | text s => return text (String.ofList (← repeated count s.toList))
  | list items => return list (← repeated count items)
  | _ => throw .unsuitable

/-- The product of two values. -/
def product (a b : Setting) : Except Failure Setting :=
  match a.quantity?, b.quantity? with
  | some x, some y => (Failure.ofRange (x.mul? y)).map ofQuantity
  | some (.whole i), none => repeatedValue i b
  | none, some (.whole i) => repeatedValue i a
  | _, _ => .error .unsuitable

@[simp] theorem product_number (i j : Int) : (number i).product (number j) = .ok (number (i * j)) :=
  rfl

end Chip8.Setting
