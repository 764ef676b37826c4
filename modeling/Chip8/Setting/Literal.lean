import Chip8.Setting
import Chip8.Text.Integer
import Chip8.Text.Nearest

/-! # Literals

The value that a word without quotes stands for: nothing, a flag, an integer or a
double. Every other word is a text.
-/

namespace Chip8.Setting

def splitSign : List Char → Bool × List Char
  | '-' :: cs => (true, cs)
  | '+' :: cs => (false, cs)
  | cs => (false, cs)

def plainDigits? (cs : List Char) : Option (List Nat) :=
  match Text.digits? cs with
  | some (0 :: _ :: _) => none
  | digits => digits

def decimal (digits : List Nat) (exponent : Int) : Float :=
  let n := Text.ofDigits digits
  let size := exponent + digits.length
  let x :=
    if n = 0 ∨ size < -400 then some 0
    else if 400 < size then none
    else Text.nearest? (n * Nat.pow 10 exponent.toNat) (Nat.pow 10 (-exponent).toNat)
  x.getD (1 / 0)

def exponent? : List Char → Option Int
  | [] => some 0
  | _ :: cs =>
    let (negative, cs) := splitSign cs
    (Text.digits? cs).map fun digits =>
      let n : Int := Text.ofDigits digits
      if negative then -n else n

def unsigned? (cs : List Char) : Option Float := do
  let isMark (c : Char) : Bool := c == 'e' || c == 'E'
  let mantissa := cs.takeWhile fun c => !isMark c
  let exponent ← exponent? (cs.dropWhile fun c => !isMark c)
  match mantissa.takeWhile (· != '.'), mantissa.dropWhile (· != '.') with
  | whole, [] =>
    if mantissa.length < cs.length then return decimal (← plainDigits? whole) exponent else none
  | [], _ :: places =>
    let places ← Text.digits? places
    return decimal places (exponent - places.length)
  | whole, [_] => return decimal (← plainDigits? whole) exponent
  | whole, _ :: places =>
    let places ← Text.digits? places
    return decimal ((← plainDigits? whole) ++ places) (exponent - places.length)

/-- A written double. -/
def double? (cs : List Char) : Option Float :=
  let (negative, cs) := splitSign cs
  let x :=
    match String.ofList (cs.map Char.toLower) with
    | "inf" => some (1 / 0)
    | "nan" => some (0 / 0)
    | _ => unsigned? cs
  x.map fun x => if negative then -x else x

def ofWord (word : String) : Setting :=
  match String.ofList (word.toList.map Char.toLower) with
  | "null" => absent
  | "true" => flag true
  | "false" => flag false
  | _ =>
    let (negative, cs) := splitSign word.toList
    match plainDigits? cs, double? word.toList with
    | some digits, _ =>
      let n : Int := Text.ofDigits digits
      number (if negative then -n else n)
    | none, some x => real x.toBits
    | none, none => text word

end Chip8.Setting
