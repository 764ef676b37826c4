import Chip8.Failure
import Chip8.Text.Integer

/-! # Integers from settings

The integer that a value gives where one is called for: a number is cut toward
zero, a flag is one or zero, and a text is read.
-/

namespace Chip8.Setting

/-- The most digits that are read. -/
def digitLimit : Nat := 4300

def integerOfText (s : String) : Except Failure Int :=
  match Text.integer? s with
  | none => .error (.notInteger s)
  | some (negative, digits) =>
    if digitLimit < digits.length then .error (.longNumeral digits.length)
    else
      let n : Int := Text.ofDigits digits
      .ok (if negative then -n else n)

def integerOfQuantity (q : Quantity) : Except Failure Int :=
  match q.fraction?, q.extent? with
  | some (n, d), _ => .ok (n.tdiv d)
  | none, some _ => .error .valueOutOfRange
  | none, none => .error .undefinedNumber

/-- The integer that a value gives. -/
def integer (v : Setting) : Except Failure Int :=
  match v, v.quantity? with
  | .text s, _ => integerOfText s
  | _, some q => integerOfQuantity q
  | _, none => .error .unsuitable

theorem integer_number (i : Int) : (number i).integer = .ok i := by
  simp [integer, integerOfQuantity, Quantity.fraction?]

def byte (v : Setting) : Except Failure UInt8 := do
  let i ← v.integer
  if 0 ≤ i ∧ i ≤ 255 then return UInt8.ofInt i else throw .valueOutOfRange

def hexadecimal (width : Nat) (v : Setting) : Except Failure String :=
  match v.whole?, v with
  | some i, _ => .ok (Text.hexInt width i)
  | none, .text _ => .error (.notHexadecimal "str")
  | none, .real _ => .error (.notHexadecimal "float")
  | none, _ => .error .unsuitable

theorem hexadecimal_number (width : Nat) (i : Int) :
    (number i).hexadecimal width = .ok (Text.hexInt width i) := rfl

end Chip8.Setting
