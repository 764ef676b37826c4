import Chip8.Text.Nearest
import Chip8.Text.Shortest

/-! # Quantities

Numbers that are either integers of any size or doubles. An integer that meets a
double becomes the nearest double, which fails if it is too large; comparisons
are exact.
-/

namespace Chip8

/-- An integer, or a double given by its bits. -/
inductive Quantity where
  | whole (i : Int)
  | real (bits : UInt64)
  deriving DecidableEq, Repr, Inhabited

namespace Quantity

def ofFloat (x : Float) : Quantity := .real x.toBits

def toFloat? : Quantity → Option Float
  | whole i => Text.nearest? i 1
  | real bits => some (Float.ofBits bits)

def display : Quantity → String
  | whole i => toString i
  | real bits => Text.shortest (Float.ofBits bits)

def fixed? (places : Nat) (q : Quantity) : Option String := q.toFloat?.map (Text.fixed places)

def isZero : Quantity → Bool
  | whole i => i == 0
  | real bits => Float.ofBits bits == 0

/-! ## Order -/

def fraction? : Quantity → Option (Int × Nat)
  | whole i => some (i, 1)
  | real bits => (Text.Binary.ofBits? bits).map fun b =>
    let n := b.significand <<< b.exponent.toNat
    (if b.negative then -(n : Int) else n, 1 <<< (-b.exponent).toNat)

def extent? (q : Quantity) : Option Int :=
  match q.fraction?, q with
  | none, real bits =>
    let x := Float.ofBits bits
    if 0 < x then some 1 else if x < 0 then some (-1) else none
  | _, _ => some 0

/-- The order of the exact values of two quantities, if both are numbers. -/
def compare? (a b : Quantity) : Option Ordering := do
  let i ← a.extent?
  let j ← b.extent?
  match a.fraction?, b.fraction? with
  | some (n, d), some (m, e) => return compare (n * e) (m * d)
  | _, _ => return compare i j

def lt : Quantity → Quantity → Bool
  | whole i, whole j => decide (i < j)
  | a, b => a.compare? b == some .lt

def le : Quantity → Quantity → Bool
  | whole i, whole j => decide (i ≤ j)
  | a, b => (a.compare? b).any (· != .gt)

def min (a b : Quantity) : Quantity := if b.lt a then b else a

def max (a b : Quantity) : Quantity := if a.lt b then b else a

/-! ## Arithmetic -/

/-- Joins two quantities as integers or, if one of them is a double, as doubles. -/
def join? (onInt : Int → Int → Int) (onFloat : Float → Float → Float) (a b : Quantity) :
    Option Quantity :=
  match a, b with
  | whole i, whole j => some (.whole (onInt i j))
  | _, _ => do return ofFloat (onFloat (← a.toFloat?) (← b.toFloat?))

def add? : Quantity → Quantity → Option Quantity := join? (· + ·) (· + ·)

def plus (q : Quantity) (n : Int) : Quantity :=
  match q with
  | whole i => .whole (i + n)
  | real bits => ofFloat (Float.ofBits bits + Float.ofInt n)

def sub? : Quantity → Quantity → Option Quantity := join? (· - ·) (· - ·)

def mul? : Quantity → Quantity → Option Quantity := join? (· * ·) (· * ·)

/-- The quotient as a double; that of two integers is rounded once. -/
def ratio? (a b : Quantity) : Option Float :=
  match a, b with
  | whole i, whole j => Text.nearest? (if j < 0 then -i else i) j.natAbs
  | _, _ => do return (← a.toFloat?) / (← b.toFloat?)

def remainder (x y : Float) : Float :=
  match (ofFloat x).fraction?, (ofFloat y).fraction? with
  | some (n, d), some (m, e) => (Text.nearest? ((n * e).tmod (m * d)) (d * e)).getD 0
  | some _, none => if y == y then x else y
  | none, _ => 0 / 0

def floorRatio (x y : Float) : Float :=
  let r := remainder x y
  let q := (x - r) / y
  let q := if r < 0 then q - 1 else q
  if 0.5 < q - q.floor then q.floor + 1 else q.floor

def floorDiv? : Quantity → Quantity → Option Quantity := join? (· / ·) floorRatio

@[simp] theorem lt_whole (i j : Int) : (whole i).lt (whole j) = decide (i < j) := rfl

@[simp] theorem join?_whole (onInt : Int → Int → Int) (onFloat : Float → Float → Float)
    (i j : Int) : join? onInt onFloat (whole i) (whole j) = some (whole (onInt i j)) := rfl

@[simp] theorem plus_whole (i n : Int) : (whole i).plus n = whole (i + n) := rfl

theorem min_whole (i j : Int) : (whole i).min (whole j) = whole (if j < i then j else i) := by
  by_cases h : j < i <;> simp [min, h]

theorem max_whole (i j : Int) : (whole i).max (whole j) = whole (if i < j then j else i) := by
  by_cases h : i < j <;> simp [max, h]

end Quantity

end Chip8
