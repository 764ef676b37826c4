import Chip8.Fault
import Chip8.Instruction.Basic

/-! # Instruction words

The four nibbles of a word, the instruction that a word stands for and the word
that stands for an instruction.
-/

namespace Chip8

namespace Word

def opcode (w : UInt16) : Fin 16 := Fin.ofNat 16 (w.toNat / 4096)

def x (w : UInt16) : Register := Fin.ofNat 16 (w.toNat / 256)

def y (w : UInt16) : Register := Fin.ofNat 16 (w.toNat / 16)

def n (w : UInt16) : Fin 16 := Fin.ofNat 16 w.toNat

def nn (w : UInt16) : UInt8 := w.toUInt8

def nnn (w : UInt16) : Address := Fin.ofNat 4096 w.toNat

def ofAddress (opcode : Nat) (nnn : Address) : UInt16 := UInt16.ofNat (4096 * opcode + nnn.val)

def ofByte (opcode : Nat) (x : Register) (nn : UInt8) : UInt16 :=
  UInt16.ofNat (4096 * opcode + 256 * x.val + nn.toNat)

def ofNibbles (opcode : Nat) (x y n : Fin 16) : UInt16 :=
  UInt16.ofNat (4096 * opcode + 256 * x.val + 16 * y.val + n.val)

theorem toNat_eq (w : UInt16) :
    w.toNat = 4096 * (opcode w).val + 256 * (x w).val + 16 * (y w).val + (n w).val := by
  have := w.toNat_lt
  simp [opcode, x, y, n]
  omega

theorem toNat_nn (w : UInt16) : (nn w).toNat = 16 * (y w).val + (n w).val := by
  simp [nn, y, n]
  omega

theorem val_nnn (w : UInt16) : (nnn w).val = 256 * (x w).val + (nn w).toNat := by
  simp [nnn, nn, x]
  omega

theorem toNat_ofAddress {k : Nat} (hk : k < 16) (a : Address) :
    (ofAddress k a).toNat = 4096 * k + a.val := by
  have := a.isLt
  simp [ofAddress]
  omega

theorem toNat_ofByte {k : Nat} (hk : k < 16) (x : Register) (b : UInt8) :
    (ofByte k x b).toNat = 4096 * k + 256 * x.val + b.toNat := by
  have := x.isLt
  have := b.toNat_lt
  simp [ofByte]
  omega

theorem toNat_ofNibbles {k : Nat} (hk : k < 16) (x y n : Fin 16) :
    (ofNibbles k x y n).toNat = 4096 * k + 256 * x.val + 16 * y.val + n.val := by
  have := x.isLt
  have := y.isLt
  have := n.isLt
  simp [ofNibbles]
  omega

end Word

namespace Arith

def nibble : Arith → Fin 16
  | set => 0x0
  | or => 0x1
  | and => 0x2
  | xor => 0x3
  | add => 0x4
  | sub => 0x5
  | shiftRight => 0x6
  | subFrom => 0x7
  | shiftLeft => 0xE

def ofNibble? (n : Fin 16) : Option Arith :=
  match n.val with
  | 0x0 => some set
  | 0x1 => some or
  | 0x2 => some and
  | 0x3 => some xor
  | 0x4 => some add
  | 0x5 => some sub
  | 0x6 => some shiftRight
  | 0x7 => some subFrom
  | 0xE => some shiftLeft
  | _ => none

end Arith

namespace Instruction

def ofRoutine (nnn : Address) : Instruction :=
  if clear : nnn = 0x0E0 then clearScreen
  else if back : nnn = 0x0EE then ret
  else system ⟨nnn, clear, back⟩

def ofKeyByte? (x : Register) (nn : UInt8) : Option Instruction :=
  match nn.toNat with
  | 0x9E => some (skipKey x)
  | 0xA1 => some (skipNotKey x)
  | _ => none

def ofMiscByte? (x : Register) (nn : UInt8) : Option Instruction :=
  match nn.toNat with
  | 0x07 => some (getDelay x)
  | 0x0A => some (waitKey x)
  | 0x15 => some (setDelay x)
  | 0x18 => some (setSound x)
  | 0x1E => some (addIndex x)
  | 0x29 => some (glyph x)
  | 0x33 => some (digits x)
  | 0x55 => some (storeRegisters x)
  | 0x65 => some (loadRegisters x)
  | _ => none

open Word in
/-- The instruction that a word stands for, if there is one. -/
def ofWord? (w : UInt16) : Option Instruction :=
  match (opcode w).val with
  | 0x0 => some (ofRoutine (nnn w))
  | 0x1 => some (jump (nnn w))
  | 0x2 => some (call (nnn w))
  | 0x3 => some (skipEqByte (x w) (nn w))
  | 0x4 => some (skipNeByte (x w) (nn w))
  | 0x5 => if n w = 0 then some (skipEq (x w) (y w)) else none
  | 0x6 => some (setByte (x w) (nn w))
  | 0x7 => some (addByte (x w) (nn w))
  | 0x8 => (Arith.ofNibble? (n w)).map fun op => arith op (x w) (y w)
  | 0x9 => if n w = 0 then some (skipNe (x w) (y w)) else none
  | 0xA => some (setIndex (nnn w))
  | 0xB => some (jumpOffset (nnn w))
  | 0xC => some (random (x w) (nn w))
  | 0xD => some (draw (x w) (y w) (n w))
  | 0xE => ofKeyByte? (x w) (nn w)
  | _ => ofMiscByte? (x w) (nn w)

/-- The word that stands for an instruction. -/
def word : Instruction → UInt16
  | system target => Word.ofAddress 0x0 target.val
  | clearScreen => 0x00E0
  | ret => 0x00EE
  | jump nnn => Word.ofAddress 0x1 nnn
  | call nnn => Word.ofAddress 0x2 nnn
  | skipEqByte x nn => Word.ofByte 0x3 x nn
  | skipNeByte x nn => Word.ofByte 0x4 x nn
  | skipEq x y => Word.ofNibbles 0x5 x y 0
  | setByte x nn => Word.ofByte 0x6 x nn
  | addByte x nn => Word.ofByte 0x7 x nn
  | arith op x y => Word.ofNibbles 0x8 x y op.nibble
  | skipNe x y => Word.ofNibbles 0x9 x y 0
  | setIndex nnn => Word.ofAddress 0xA nnn
  | jumpOffset nnn => Word.ofAddress 0xB nnn
  | random x nn => Word.ofByte 0xC x nn
  | draw x y n => Word.ofNibbles 0xD x y n
  | skipKey x => Word.ofByte 0xE x 0x9E
  | skipNotKey x => Word.ofByte 0xE x 0xA1
  | getDelay x => Word.ofByte 0xF x 0x07
  | waitKey x => Word.ofByte 0xF x 0x0A
  | setDelay x => Word.ofByte 0xF x 0x15
  | setSound x => Word.ofByte 0xF x 0x18
  | addIndex x => Word.ofByte 0xF x 0x1E
  | glyph x => Word.ofByte 0xF x 0x29
  | digits x => Word.ofByte 0xF x 0x33
  | storeRegisters x => Word.ofByte 0xF x 0x55
  | loadRegisters x => Word.ofByte 0xF x 0x65

def decodeWord (w : UInt16) : Except Fault Instruction :=
  match ofWord? w with
  | some i => .ok i
  | none => .error (.invalidOpcode w.toNat)

/-- Decodes an integer, which must also fit in sixteen bits. -/
def decode (w : Int) : Except Fault Instruction :=
  if 0 ≤ w ∧ w ≤ 0xFFFF then decodeWord (UInt16.ofInt w) else .error (.invalidOpcode w)

end Instruction

end Chip8
