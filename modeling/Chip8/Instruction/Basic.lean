/-! # Instructions

The thirty-five operations of the machine. An instruction carries exactly the
operands that its operation uses: registers, a byte, a nibble or an address.
-/

namespace Chip8

instance instNeZeroSixteen : @NeZero Nat Zero.ofOfNat0 16 := ⟨by decide⟩

instance instNeZeroMemory : @NeZero Nat Zero.ofOfNat0 4096 := ⟨by decide⟩

abbrev Register := Fin 16

abbrev Address := Fin 4096

/-- The addresses of machine routines; two words of the same shape are instructions of their own. -/
abbrev Routine := { a : Address // a ≠ 0x0E0 ∧ a ≠ 0x0EE }

/-- What an instruction computes from two registers. -/
inductive Arith where
  | set | or | and | xor | add | sub | shiftRight | subFrom | shiftLeft
  deriving DecidableEq, Repr, Inhabited

/-- A decoded instruction. -/
inductive Instruction where
  | system (target : Routine)
  | clearScreen
  | ret
  | jump (target : Address)
  | call (target : Address)
  | skipEqByte (x : Register) (value : UInt8)
  | skipNeByte (x : Register) (value : UInt8)
  | skipEq (x y : Register)
  | setByte (x : Register) (value : UInt8)
  | addByte (x : Register) (value : UInt8)
  | arith (op : Arith) (x y : Register)
  | skipNe (x y : Register)
  | setIndex (target : Address)
  | jumpOffset (target : Address)
  | random (x : Register) (mask : UInt8)
  | draw (x y : Register) (height : Fin 16)
  | skipKey (x : Register)
  | skipNotKey (x : Register)
  | getDelay (x : Register)
  | waitKey (x : Register)
  | setDelay (x : Register)
  | setSound (x : Register)
  | addIndex (x : Register)
  | glyph (x : Register)
  | digits (x : Register)
  | storeRegisters (x : Register)
  | loadRegisters (x : Register)
  deriving DecidableEq, Repr

end Chip8
