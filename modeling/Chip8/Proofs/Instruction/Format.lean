import Chip8.CallStack
import Chip8.Instruction.Mnemonic
import Chip8.Proofs.Instruction.Grammar

/-! # Instruction formats

The instruction table fixes some of the four nibbles of a word for each operation
and leaves the others to the operands. A word is decoded exactly if it has the
format of an operation, and then it has that of no other one.
-/

namespace Chip8

inductive Nibble where
  | opcode | x | y | n
  deriving DecidableEq

def Word.nibble (w : UInt16) : Nibble → Fin 16
  | .opcode => opcode w
  | .x => x w
  | .y => y w
  | .n => n w

/-- The nibbles that the instruction table fixes for an operation. -/
abbrev Format := Nibble → Option (Fin 16)

namespace Format

variable {k a b c : Fin 16} {w : UInt16}

def exact (k a b c : Fin 16) : Format
  | .opcode => some k
  | .x => some a
  | .y => some b
  | .n => some c

def leading (k : Fin 16) : Format
  | .opcode => some k
  | _ => none

def ends (k c : Fin 16) : Format
  | .opcode => some k
  | .n => some c
  | _ => none

def endsByte (k b c : Fin 16) : Format
  | .opcode => some k
  | .y => some b
  | .n => some c
  | .x => none

/-- A word has the nibbles that a format fixes. -/
def Fits (f : Format) (w : UInt16) : Prop := ∀ p d, f p = some d → Word.nibble w p = d

theorem exact_fits_iff : (exact k a b c).Fits w ↔ w = Word.ofNibbles k a b c := by
  constructor
  · intro h
    apply UInt16.toNat_inj.mp
    rw [Word.toNat_eq, Word.toNat_ofNibbles k.isLt]
    rw [show Word.opcode w = k from h .opcode k rfl, show Word.x w = a from h .x a rfl,
      show Word.y w = b from h .y b rfl, show Word.n w = c from h .n c rfl]
  · rintro rfl p d hp
    cases p <;> cases hp
    · exact Fin.ext (Word.opcode_ofNibbles a b c k.isLt)
    · exact Word.x_ofNibbles a b c k.isLt
    · exact Word.y_ofNibbles a b c k.isLt
    · exact Word.n_ofNibbles a b c k.isLt

theorem leading_fits_iff : (leading k).Fits w ↔ Word.opcode w = k := by
  constructor
  · exact fun h => h .opcode k rfl
  · rintro rfl p d hp
    cases p <;> cases hp
    rfl

theorem ends_fits_iff : (ends k c).Fits w ↔ Word.opcode w = k ∧ Word.n w = c := by
  constructor
  · exact fun h => ⟨h .opcode k rfl, h .n c rfl⟩
  · rintro ⟨rfl, rfl⟩ p d hp
    cases p <;> cases hp <;> rfl

theorem endsByte_fits_iff :
    (endsByte k b c).Fits w ↔ Word.opcode w = k ∧ (Word.nn w).toNat = 16 * b.val + c.val := by
  rw [Word.toNat_nn]
  constructor
  · intro h
    rw [show Word.y w = b from h .y b rfl, show Word.n w = c from h .n c rfl]
    exact ⟨h .opcode k rfl, rfl⟩
  · rintro ⟨rfl, hnn⟩ p d hp
    have hy : Word.y w = b := Fin.ext (by omega)
    have hn : Word.n w = c := Fin.ext (by omega)
    cases p <;> cases hp
    · rfl
    · exact hy
    · exact hn

end Format

namespace Word

variable {k : Nat} {w : UInt16}

theorem ofAddress_nnn (h : (opcode w).val = k) : ofAddress k (nnn w) = w := by
  subst h
  apply UInt16.toNat_inj.mp
  rw [toNat_ofAddress (opcode w).isLt, toNat_eq w, val_nnn, toNat_nn]
  omega

theorem ofByte_nn (h : (opcode w).val = k) : ofByte k (x w) (nn w) = w := by
  subst h
  apply UInt16.toNat_inj.mp
  rw [toNat_ofByte (opcode w).isLt, toNat_eq w, toNat_nn]
  omega

theorem ofNibbles_n (h : (opcode w).val = k) : ofNibbles k (x w) (y w) (n w) = w := by
  subst h
  apply UInt16.toNat_inj.mp
  rw [toNat_ofNibbles (opcode w).isLt, toNat_eq w]

end Word

namespace Operation

def format : Operation → Format
  | system => .leading 0x0
  | clearScreen => .exact 0x0 0x0 0xE 0x0
  | ret => .exact 0x0 0x0 0xE 0xE
  | jump => .leading 0x1
  | call => .leading 0x2
  | skipEqByte => .leading 0x3
  | skipNeByte => .leading 0x4
  | skipEq => .ends 0x5 0x0
  | setByte => .leading 0x6
  | addByte => .leading 0x7
  | set => .ends 0x8 0x0
  | or => .ends 0x8 0x1
  | and => .ends 0x8 0x2
  | xor => .ends 0x8 0x3
  | add => .ends 0x8 0x4
  | sub => .ends 0x8 0x5
  | shiftRight => .ends 0x8 0x6
  | subFrom => .ends 0x8 0x7
  | shiftLeft => .ends 0x8 0xE
  | skipNe => .ends 0x9 0x0
  | setIndex => .leading 0xA
  | jumpOffset => .leading 0xB
  | random => .leading 0xC
  | draw => .leading 0xD
  | skipKey => .endsByte 0xE 0x9 0xE
  | skipNotKey => .endsByte 0xE 0xA 0x1
  | getDelay => .endsByte 0xF 0x0 0x7
  | waitKey => .endsByte 0xF 0x0 0xA
  | setDelay => .endsByte 0xF 0x1 0x5
  | setSound => .endsByte 0xF 0x1 0x8
  | addIndex => .endsByte 0xF 0x1 0xE
  | glyph => .endsByte 0xF 0x2 0x9
  | digits => .endsByte 0xF 0x3 0x3
  | storeRegisters => .endsByte 0xF 0x5 0x5
  | loadRegisters => .endsByte 0xF 0x6 0x5

/-- A word belongs to an operation: it has its format, and is not one of the two instructions
that have the format of a routine. -/
structure Matches (op : Operation) (w : UInt16) : Prop where
  fits : op.format.Fits w
  routine : op = .system → w ≠ 0x00E0 ∧ w ≠ 0x00EE

variable {op : Operation} {w : UInt16}

theorem Matches.opcode_eq (h : op.Matches w) (k : Fin 16) (hf : op.format = .leading k) :
    (Word.opcode w).val = k := by
  have hfits := h.fits
  rw [hf, Format.leading_fits_iff] at hfits
  rw [hfits]

theorem Matches.ends_eq (h : op.Matches w) (k c : Fin 16) (hf : op.format = .ends k c) :
    Word.ofNibbles k (Word.x w) (Word.y w) c = w := by
  have hfits := h.fits
  rw [hf, Format.ends_fits_iff] at hfits
  obtain ⟨rfl, rfl⟩ := hfits
  exact Word.ofNibbles_n rfl

theorem Matches.endsByte_eq (h : op.Matches w) (k b c : Fin 16) {nn : UInt8}
    (hf : op.format = .endsByte k b c) (hnn : nn.toNat = 16 * b.val + c.val) :
    Word.ofByte k (Word.x w) nn = w := by
  have hfits := h.fits
  rw [hf, Format.endsByte_fits_iff, ← hnn] at hfits
  obtain ⟨rfl, hbyte⟩ := hfits
  rw [← UInt8.toNat_inj.mp hbyte]
  exact Word.ofByte_nn rfl

theorem Matches.exists_word_eq (h : op.Matches w) :
    ∃ i : Instruction, i.word = w ∧ i.operation = op := by
  cases op with
  | system =>
    obtain ⟨hclear, hret⟩ := h.routine rfl
    have hw : Word.ofAddress 0x0 (Word.nnn w) = w := Word.ofAddress_nnn (h.opcode_eq 0x0 rfl)
    refine ⟨.system ⟨Word.nnn w, ?_, ?_⟩, hw, rfl⟩
    · intro hnnn
      rw [hnnn] at hw
      exact hclear hw.symm
    · intro hnnn
      rw [hnnn] at hw
      exact hret hw.symm
  | clearScreen => exact ⟨.clearScreen, (Format.exact_fits_iff.mp h.fits).symm, rfl⟩
  | ret => exact ⟨.ret, (Format.exact_fits_iff.mp h.fits).symm, rfl⟩
  | jump => exact ⟨.jump _, Word.ofAddress_nnn (h.opcode_eq 0x1 rfl), rfl⟩
  | call => exact ⟨.call _, Word.ofAddress_nnn (h.opcode_eq 0x2 rfl), rfl⟩
  | skipEqByte => exact ⟨.skipEqByte _ _, Word.ofByte_nn (h.opcode_eq 0x3 rfl), rfl⟩
  | skipNeByte => exact ⟨.skipNeByte _ _, Word.ofByte_nn (h.opcode_eq 0x4 rfl), rfl⟩
  | skipEq => exact ⟨.skipEq _ _, h.ends_eq 0x5 0x0 rfl, rfl⟩
  | setByte => exact ⟨.setByte _ _, Word.ofByte_nn (h.opcode_eq 0x6 rfl), rfl⟩
  | addByte => exact ⟨.addByte _ _, Word.ofByte_nn (h.opcode_eq 0x7 rfl), rfl⟩
  | set => exact ⟨.arith .set _ _, h.ends_eq 0x8 0x0 rfl, rfl⟩
  | or => exact ⟨.arith .or _ _, h.ends_eq 0x8 0x1 rfl, rfl⟩
  | and => exact ⟨.arith .and _ _, h.ends_eq 0x8 0x2 rfl, rfl⟩
  | xor => exact ⟨.arith .xor _ _, h.ends_eq 0x8 0x3 rfl, rfl⟩
  | add => exact ⟨.arith .add _ _, h.ends_eq 0x8 0x4 rfl, rfl⟩
  | sub => exact ⟨.arith .sub _ _, h.ends_eq 0x8 0x5 rfl, rfl⟩
  | shiftRight => exact ⟨.arith .shiftRight _ _, h.ends_eq 0x8 0x6 rfl, rfl⟩
  | subFrom => exact ⟨.arith .subFrom _ _, h.ends_eq 0x8 0x7 rfl, rfl⟩
  | shiftLeft => exact ⟨.arith .shiftLeft _ _, h.ends_eq 0x8 0xE rfl, rfl⟩
  | skipNe => exact ⟨.skipNe _ _, h.ends_eq 0x9 0x0 rfl, rfl⟩
  | setIndex => exact ⟨.setIndex _, Word.ofAddress_nnn (h.opcode_eq 0xA rfl), rfl⟩
  | jumpOffset => exact ⟨.jumpOffset _, Word.ofAddress_nnn (h.opcode_eq 0xB rfl), rfl⟩
  | random => exact ⟨.random _ _, Word.ofByte_nn (h.opcode_eq 0xC rfl), rfl⟩
  | draw => exact ⟨.draw _ _ _, Word.ofNibbles_n (h.opcode_eq 0xD rfl), rfl⟩
  | skipKey => exact ⟨.skipKey _, h.endsByte_eq 0xE 0x9 0xE rfl rfl, rfl⟩
  | skipNotKey => exact ⟨.skipNotKey _, h.endsByte_eq 0xE 0xA 0x1 rfl rfl, rfl⟩
  | getDelay => exact ⟨.getDelay _, h.endsByte_eq 0xF 0x0 0x7 rfl rfl, rfl⟩
  | waitKey => exact ⟨.waitKey _, h.endsByte_eq 0xF 0x0 0xA rfl rfl, rfl⟩
  | setDelay => exact ⟨.setDelay _, h.endsByte_eq 0xF 0x1 0x5 rfl rfl, rfl⟩
  | setSound => exact ⟨.setSound _, h.endsByte_eq 0xF 0x1 0x8 rfl rfl, rfl⟩
  | addIndex => exact ⟨.addIndex _, h.endsByte_eq 0xF 0x1 0xE rfl rfl, rfl⟩
  | glyph => exact ⟨.glyph _, h.endsByte_eq 0xF 0x2 0x9 rfl rfl, rfl⟩
  | digits => exact ⟨.digits _, h.endsByte_eq 0xF 0x3 0x3 rfl rfl, rfl⟩
  | storeRegisters => exact ⟨.storeRegisters _, h.endsByte_eq 0xF 0x5 0x5 rfl rfl, rfl⟩
  | loadRegisters => exact ⟨.loadRegisters _, h.endsByte_eq 0xF 0x6 0x5 rfl rfl, rfl⟩

end Operation

/-! ## The words of instructions -/

namespace Format

variable (k a b c : Fin 16)

theorem leading_fits_ofAddress (target : Address) :
    (leading k).Fits (Word.ofAddress k target) :=
  leading_fits_iff.mpr (Fin.ext (Word.opcode_ofAddress k.isLt target))

theorem leading_fits_ofByte (nn : UInt8) : (leading k).Fits (Word.ofByte k a nn) :=
  leading_fits_iff.mpr (Fin.ext (Word.opcode_ofByte k.isLt a nn))

theorem leading_fits_ofNibbles : (leading k).Fits (Word.ofNibbles k a b c) :=
  leading_fits_iff.mpr (Fin.ext (Word.opcode_ofNibbles a b c k.isLt))

theorem ends_fits_ofNibbles : (ends k c).Fits (Word.ofNibbles k a b c) := by
  rw [ends_fits_iff]
  constructor
  · exact Fin.ext (Word.opcode_ofNibbles a b c k.isLt)
  · exact Word.n_ofNibbles a b c k.isLt

theorem endsByte_fits_ofByte {nn : UInt8} (hnn : nn.toNat = 16 * b.val + c.val) :
    (endsByte k b c).Fits (Word.ofByte k a nn) := by
  rw [endsByte_fits_iff, Word.nn_ofByte k.isLt]
  exact ⟨Fin.ext (Word.opcode_ofByte k.isLt a nn), hnn⟩

end Format

namespace Instruction

theorem fits_word (i : Instruction) : i.operation.format.Fits i.word := by
  cases i with
  | system target => exact Format.leading_fits_ofAddress _ target.val
  | clearScreen | ret => exact Format.exact_fits_iff.mpr rfl
  | jump target | call target | setIndex target | jumpOffset target =>
    exact Format.leading_fits_ofAddress _ target
  | skipEqByte x nn | skipNeByte x nn | setByte x nn | addByte x nn | random x nn =>
    exact Format.leading_fits_ofByte _ x nn
  | skipEq x y | skipNe x y => exact Format.ends_fits_ofNibbles _ x y _
  | arith op x y => cases op <;> exact Format.ends_fits_ofNibbles _ x y _
  | draw x y n => exact Format.leading_fits_ofNibbles _ x y n
  | skipKey x | skipNotKey x | getDelay x | waitKey x | setDelay x | setSound x | addIndex x
  | glyph x | digits x | storeRegisters x | loadRegisters x =>
    exact Format.endsByte_fits_ofByte _ x _ _ rfl

theorem matches_word (i : Instruction) : i.operation.Matches i.word := by
  refine ⟨i.fits_word, fun hop => ?_⟩
  cases i with
  | system target =>
    obtain ⟨a, hclear, hret⟩ := target
    have ha : Word.nnn (Word.ofAddress 0x0 a) = a := Word.nnn_ofAddress (by decide) a
    constructor
    · intro hw
      exact hclear (ha.symm.trans (congrArg Word.nnn hw))
    · intro hw
      exact hret (ha.symm.trans (congrArg Word.nnn hw))
  | arith op x y => cases op <;> cases hop
  | _ => cases hop

theorem matches_iff {op : Operation} {w : UInt16} :
    op.Matches w ↔ ∃ i, ofWord? w = some i ∧ i.operation = op := by
  simp only [ofWord?_eq_some_iff]
  constructor
  · exact Operation.Matches.exists_word_eq
  · rintro ⟨i, rfl, rfl⟩
    exact i.matches_word

/-- The nibbles of a word are those of an instruction exactly if it belongs to an operation. -/
theorem isInstruction_iff_exists_matches {w : UInt16} :
    Word.isInstruction w = true ↔ ∃ op : Operation, op.Matches w := by
  rw [← isSome_ofWord?, Option.isSome_iff_exists]
  constructor
  · rintro ⟨i, hi⟩
    exact ⟨i.operation, matches_iff.mpr ⟨i, hi, rfl⟩⟩
  · rintro ⟨op, hop⟩
    obtain ⟨i, hi, -⟩ := matches_iff.mp hop
    exact ⟨i, hi⟩

/-- The operands of an instruction are those fields of a word. -/
def Carries (w : UInt16) : Instruction → Prop
  | clearScreen | ret => True
  | system target => target.val = Word.nnn w
  | jump target | call target | setIndex target | jumpOffset target => target = Word.nnn w
  | skipEqByte x nn | skipNeByte x nn | setByte x nn | addByte x nn | random x nn =>
    x = Word.x w ∧ nn = Word.nn w
  | skipEq x y | skipNe x y | arith _ x y => x = Word.x w ∧ y = Word.y w
  | draw x y n => x = Word.x w ∧ y = Word.y w ∧ n = Word.n w
  | skipKey x | skipNotKey x | getDelay x | waitKey x | setDelay x | setSound x | addIndex x
  | glyph x | digits x | storeRegisters x | loadRegisters x => x = Word.x w

theorem carries_word (i : Instruction) : i.Carries i.word := by
  cases i with
  | clearScreen | ret => trivial
  | system target => exact (Word.nnn_ofAddress (by decide) target.val).symm
  | jump target | call target | setIndex target | jumpOffset target =>
    exact (Word.nnn_ofAddress (by decide) target).symm
  | skipEqByte x nn | skipNeByte x nn | setByte x nn | addByte x nn | random x nn =>
    exact ⟨(Word.x_ofByte (by decide) x nn).symm, (Word.nn_ofByte (by decide) x nn).symm⟩
  | skipEq x y | skipNe x y | arith op x y =>
    exact ⟨(Word.x_ofNibbles x y _ (by decide)).symm, (Word.y_ofNibbles x y _ (by decide)).symm⟩
  | draw x y n =>
    exact ⟨(Word.x_ofNibbles x y n (by decide)).symm, (Word.y_ofNibbles x y n (by decide)).symm,
      (Word.n_ofNibbles x y n (by decide)).symm⟩
  | skipKey x | skipNotKey x | getDelay x | waitKey x | setDelay x | setSound x | addIndex x
  | glyph x | digits x | storeRegisters x | loadRegisters x =>
    exact (Word.x_ofByte (by decide) x _).symm

/-! ## Decoding -/

theorem ofInt_toNat (w : UInt16) : UInt16.ofInt w.toNat = w := by
  rw [CallStack.ofInt_natCast, UInt16.ofNat_toNat]

theorem exists_toNat_eq {w : Int} (h : 0 ≤ w ∧ w ≤ 0xFFFF) : ∃ r : UInt16, w = r.toNat := by
  refine ⟨UInt16.ofNat w.toNat, ?_⟩
  rw [UInt16.toNat_ofNat']
  omega

theorem decode_toNat (w : UInt16) : decode w.toNat = decodeWord w := by
  have hw := w.toNat_lt
  rw [decode, ofInt_toNat, if_pos ⟨by omega, by omega⟩]

theorem decode_word (i : Instruction) : decode i.word.toNat = .ok i := by
  rw [decode_toNat, decodeWord, ofWord?_word]

theorem toNat_word_of_decode {w : Int} {i : Instruction} (h : decode w = .ok i) :
    (i.word.toNat : Int) = w := by
  by_cases hw : 0 ≤ w ∧ w ≤ 0xFFFF
  · obtain ⟨r, rfl⟩ := exists_toNat_eq hw
    rw [decode_toNat, decodeWord] at h
    split at h
    · next i' hi =>
      obtain rfl := Except.ok.inj h
      rw [word_of_ofWord? hi]
    · cases h
  · rw [decode, if_neg hw] at h
    cases h

theorem exists_decode_iff {w : Int} :
    (∃ i, decode w = .ok i) ↔
      (0 ≤ w ∧ w ≤ 0xFFFF) ∧ ∃ op : Operation, op.Matches (UInt16.ofInt w) := by
  constructor
  · rintro ⟨i, hi⟩
    rw [← toNat_word_of_decode hi, ofInt_toNat]
    have hlt := i.word.toNat_lt
    exact ⟨by omega, _, i.matches_word⟩
  · rintro ⟨hw, op, hop⟩
    obtain ⟨r, rfl⟩ := exists_toNat_eq hw
    rw [ofInt_toNat] at hop
    obtain ⟨i, rfl, -⟩ := hop.exists_word_eq
    exact ⟨i, i.decode_word⟩

theorem decode_eq_or (w : Int) :
    (∃ i, decode w = .ok i) ∨ decode w = .error (.invalidOpcode w) := by
  by_cases hw : 0 ≤ w ∧ w ≤ 0xFFFF
  · obtain ⟨r, rfl⟩ := exists_toNat_eq hw
    rw [decode_toNat, decodeWord]
    cases ofWord? r with
    | none => exact .inr rfl
    | some i => exact .inl ⟨i, rfl⟩
  · exact .inr (if_neg hw)

/-- An integer is decoded exactly if it is a word with the format of an operation, and is reported
otherwise. The instruction has that operation, the only one whose format the word has, and the
fields of the word for operands, from which the word can be built again. Every instruction is what
its word is decoded to. -/
theorem decode_grammar (w : Int) :
    ((∃ i, decode w = .ok i) ↔
      (0 ≤ w ∧ w ≤ 0xFFFF) ∧ ∃ op : Operation, op.Matches (UInt16.ofInt w)) ∧
    ((¬ ∃ i, decode w = .ok i) → decode w = .error (.invalidOpcode w)) ∧
    (∀ i, decode w = .ok i → ∃ r : UInt16, (r.toNat : Int) = w ∧ i.word = r ∧ i.Carries r ∧
      (∀ op : Operation, op.Matches r ↔ op = i.operation) ∧
      r.toNat = 4096 * (Word.opcode r).val + 256 * (Word.x r).val + 16 * (Word.y r).val +
        (Word.n r).val ∧
      (Word.nn r).toNat = 16 * (Word.y r).val + (Word.n r).val ∧
      (Word.nnn r).val = 256 * (Word.x r).val + (Word.nn r).toNat) ∧
    ∀ i : Instruction, decode i.word.toNat = .ok i := by
  refine ⟨exists_decode_iff, (decode_eq_or w).resolve_left, ?_, decode_word⟩
  intro i hi
  refine ⟨i.word, toNat_word_of_decode hi, rfl, i.carries_word, ?_, Word.toNat_eq _,
    Word.toNat_nn _, Word.val_nnn _⟩
  intro op
  rw [matches_iff, ofWord?_word]
  constructor
  · rintro ⟨i', hi', rfl⟩
    rw [Option.some.inj hi']
  · rintro rfl
    exact ⟨i, rfl, rfl⟩

theorem decode_grammar_last_nibble :
    (arith .add 0xA 0xB).Carries 0x8AB4 ∧ (∀ op : Operation, op.Matches 0x8AB4 ↔ op = .add) ∧
      decode 0x8AB8 = .error (.invalidOpcode 0x8AB8) := by
  have hok : decode 0x8AB4 = .ok (arith .add 0xA 0xB) := rfl
  obtain ⟨r, hr, -, hcarries, hmatches, -⟩ := (decode_grammar 0x8AB4).2.2.1 _ hok
  obtain rfl : r = 0x8AB4 := UInt16.toNat_inj.mp (Int.ofNat.inj hr)
  refine ⟨hcarries, hmatches, (decode_grammar 0x8AB8).2.1 ?_⟩
  rintro ⟨i, hi⟩
  have hinvalid : decode 0x8AB8 = .error (.invalidOpcode 0x8AB8) := rfl
  exact nomatch hinvalid.symm.trans hi

end Instruction

end Chip8
