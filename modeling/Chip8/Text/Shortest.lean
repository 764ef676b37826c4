import Chip8.Text.Decimal

/-! # Shortest decimals

The fewest decimal digits that read back as a given double, and their layout:
positional from a ten-thousandth up to ten quadrillion, with an exponent beyond.
-/

namespace Chip8.Text

def compareScaled (a : Nat) (i : Int) (n : Nat) (j : Int) : Ordering :=
  compare (a * Nat.pow 10 i.toNat <<< (-j).toNat) ((n <<< j.toNat) * Nat.pow 10 (-i).toNat)

namespace Binary

def isNarrow (b : Binary) : Bool := b.significand == 0x10000000000000 && decide (-1074 < b.exponent)

/-- Whether `d * 10 ^ e` is rounded to the double; the ends of its interval are when it is even. -/
def readsBack (b : Binary) (d : Nat) (e : Int) : Bool :=
  let low := compareScaled d e (4 * b.significand - if b.isNarrow then 1 else 2) (b.exponent - 2)
  let high := compareScaled d e (4 * b.significand + 2) (b.exponent - 2)
  if b.significand % 2 = 0 then low != .lt && high != .gt else low == .gt && high == .lt

def magnitude (b : Binary) : Int :=
  (((List.range 640).find? fun (i : Nat) =>
    compareScaled 1 (i - 330) b.significand b.exponent == .gt).getD 640 : Nat) - 330

/-- The multiple of `10 ^ e` that reads back, the nearer one if there are two. -/
def onGrid? (b : Binary) (e : Int) : Option (Nat × Int) :=
  let lower := (b.significand <<< b.exponent.toNat) * Nat.pow 10 (-e).toNat /
    (Nat.pow 10 e.toNat <<< (-b.exponent).toNat)
  let upper := lower + 1
  match b.readsBack lower e, b.readsBack upper e with
  | true, true =>
    match compareScaled (2 * lower + 1) e (2 * b.significand) b.exponent with
    | .gt => some (lower, e)
    | .lt => some (upper, e)
    | .eq => some (if lower % 2 = 0 then lower else upper, e)
  | true, false => some (lower, e)
  | false, true => some (upper, e)
  | false, false => none

def decimal (b : Binary) : Nat × Int :=
  let top := b.magnitude
  ((List.range 17).findSome? fun n => b.onGrid? (top - (n + 1 : Nat))).getD
    ((b.significand <<< b.exponent.toNat) * Nat.pow 5 (-b.exponent).toNat, min 0 b.exponent)

end Binary

def layout (digits : List Char) (point : Int) : List Char :=
  if -4 < point ∧ point ≤ 16 then
    if point ≤ 0 then '0' :: '.' :: (List.replicate (-point).toNat '0' ++ digits)
    else
      let whole := digits.take point.toNat
      let rest := digits.drop point.toNat
      whole ++ List.replicate (point.toNat - whole.length) '0' ++
        '.' :: (if rest.isEmpty then ['0'] else rest)
  else
    let exponent := (toString (point - 1).natAbs).toList.leftpad 2 '0'
    digits.take 1 ++ (if digits.length ≤ 1 then [] else '.' :: digits.drop 1) ++
      'e' :: (if point ≤ 0 then '-' else '+') :: exponent

/-- A double in the fewest digits; integers keep one place. -/
def shortest (x : Float) : String :=
  match Binary.ofBits? x.toBits with
  | none => if x == x then (if x < 0 then "-inf" else "inf") else "nan"
  | some b =>
    let body :=
      if b.significand = 0 then ['0', '.', '0']
      else
        let (d, e) := b.decimal
        let all := (toString d).toList
        let digits := (all.reverse.dropWhile (· == '0')).reverse
        layout digits (all.length + e)
    (if b.negative then "-" else "") ++ String.ofList body

def groupedReal (x : Float) : String :=
  let cs := (shortest x).toList
  let sign := cs.takeWhile (· == '-')
  let rest := cs.dropWhile (· == '-')
  let whole := rest.takeWhile Char.isDigit
  String.ofList (sign ++ (groupThrees whole.reverse).reverse ++ rest.dropWhile Char.isDigit)

end Chip8.Text
