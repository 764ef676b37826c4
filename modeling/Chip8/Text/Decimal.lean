/-! # Decimal text

Grouped integers and binary floating-point numbers with a fixed number of
places. A binary number is taken at its exact value, and a half goes to the even
neighbour.
-/

namespace Chip8.Text

def alignRight (width : Nat) (s : String) : String :=
  String.ofList (s.toList.leftpad width ' ')

def groupThrees : List Char → List Char
  | a :: b :: c :: d :: rest => a :: b :: c :: ',' :: groupThrees (d :: rest)
  | ds => ds

def grouped (i : Int) : String :=
  let digits := String.ofList (groupThrees (toString i.natAbs).toList.reverse).reverse
  if i < 0 then "-" ++ digits else digits

/-- The integer nearest to `num / den`; of two nearest, the even one. -/
def roundHalfEven (num den : Nat) : Nat :=
  let q := num / den
  let r := num % den
  if 2 * r < den then q
  else if den < 2 * r then q + 1
  else if q % 2 = 0 then q else q + 1

def placed (places n : Nat) : String :=
  let unit := Nat.pow 10 places
  let whole := toString (n / unit)
  if places = 0 then whole
  else
    let fraction := (toString (n % unit)).toList.leftpad places '0'
    whole ++ "." ++ String.ofList fraction

structure Binary where
  negative : Bool
  significand : Nat
  exponent : Int
  deriving DecidableEq, Repr

def Binary.ofBits? (bits : UInt64) : Option Binary :=
  let n := bits.toNat
  let negative := decide (0x8000000000000000 ≤ n)
  let e : Nat := n / 0x10000000000000 % 2048
  let m := n % 0x10000000000000
  if e = 2047 then none
  else if e = 0 then some ⟨negative, m, -1074⟩
  else some ⟨negative, 0x10000000000000 + m, (e : Int) - 1075⟩

def Binary.scaled (places : Nat) (b : Binary) : Nat :=
  let num := (b.significand <<< b.exponent.toNat) * Nat.pow 10 places
  roundHalfEven num (1 <<< (-b.exponent).toNat)

/-- A double with a fixed number of places; a negative one keeps its sign when it rounds to zero. -/
def fixed (places : Nat) (x : Float) : String :=
  match Binary.ofBits? x.toBits with
  | some b => (if b.negative then "-" else "") ++ placed places (b.scaled places)
  | none => if x == x then (if x < 0 then "-inf" else "inf") else "nan"

end Chip8.Text
