import Chip8.Instruction.Basic

/-! # Arithmetic

The results of the two-register instructions. A flag, where there is one, tells
of a carry, of the absence of a borrow or of the bit that was shifted out.
-/

namespace Chip8.Arith

/-- The result for the values of `VX` and `VY`, and the flag if the operation has one. -/
def apply (a b : UInt8) : Arith → UInt8 × Option Bool
  | set => (b, none)
  | or => (a ||| b, none)
  | and => (a &&& b, none)
  | xor => (a ^^^ b, none)
  | add => (a + b, some (decide (0xFF < a.toNat + b.toNat)))
  | sub => (a - b, some (decide (b ≤ a)))
  | shiftRight => (a >>> 1, some (a &&& 1 != 0))
  | subFrom => (b - a, some (decide (a ≤ b)))
  | shiftLeft => (a <<< 1, some (a &&& 0x80 != 0))

def shifts : Arith → Bool
  | shiftRight | shiftLeft => true
  | _ => false

def isLogic : Arith → Bool
  | or | and | xor => true
  | _ => false

end Chip8.Arith
