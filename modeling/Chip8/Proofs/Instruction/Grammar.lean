import Chip8.Instruction.RoundTrip
import Mathlib.Tactic.IntervalCases

/-! # The instruction grammar

The words that stand for instructions, told by their nibbles alone. The decoder
accepts exactly these.
-/

namespace Chip8

/-- Whether the nibbles of a word are those of an instruction. -/
def Word.isInstruction (w : UInt16) : Bool :=
  match (opcode w).val with
  | 0x5 | 0x9 => (n w).val == 0
  | 0x8 => (n w).val ≤ 0x7 || (n w).val == 0xE
  | 0xE => [0x9E, 0xA1].contains (nn w).toNat
  | 0xF => [0x07, 0x0A, 0x15, 0x18, 0x1E, 0x29, 0x33, 0x55, 0x65].contains (nn w).toNat
  | _ => true

theorem Arith.isSome_ofNibble? (n : Fin 16) :
    (ofNibble? n).isSome = (decide (n.val ≤ 0x7) || n.val == 0xE) := by
  revert n
  decide

namespace Instruction

theorem isSome_ofKeyByte? (x : Register) (b : UInt8) :
    (ofKeyByte? x b).isSome = [0x9E, 0xA1].contains b.toNat := by
  unfold ofKeyByte?
  split <;> simp_all

theorem isSome_ofMiscByte? (x : Register) (b : UInt8) :
    (ofMiscByte? x b).isSome =
      [0x07, 0x0A, 0x15, 0x18, 0x1E, 0x29, 0x33, 0x55, 0x65].contains b.toNat := by
  unfold ofMiscByte?
  split <;> simp_all

theorem isSome_of_nibble (n : Fin 16) (i : Instruction) :
    (if n = 0 then some i else none).isSome = (n.val == 0) := by
  by_cases h : n = 0
  · simp [h]
  · have hv : n.val ≠ 0 := fun hv => h (Fin.ext hv)
    simp [h, hv]

theorem isSome_ofWord? (w : UInt16) : (ofWord? w).isSome = Word.isInstruction w := by
  have hlt := (Word.opcode w).isLt
  unfold ofWord? Word.isInstruction
  generalize (Word.opcode w).val = k at *
  interval_cases k
  case «5» => exact isSome_of_nibble ..
  case «8» => exact Option.isSome_map.trans (Arith.isSome_ofNibble? _)
  case «9» => exact isSome_of_nibble ..
  case «14» => exact isSome_ofKeyByte? ..
  case «15» => exact isSome_ofMiscByte? ..
  all_goals rfl

theorem decodeWord_of_not_isInstruction {w : UInt16} (h : Word.isInstruction w = false) :
    decodeWord w = .error (.invalidOpcode w.toNat) := by
  rw [← isSome_ofWord?, Option.isSome_eq_false_iff, Option.isNone_iff_eq_none] at h
  unfold decodeWord
  rw [h]

theorem exists_of_isInstruction {w : UInt16} (h : Word.isInstruction w = true) :
    ∃ i, ofWord? w = some i := by
  rwa [← isSome_ofWord?, Option.isSome_iff_exists] at h

end Instruction

end Chip8
