import Chip8.Instruction.Word

/-! # Words and instructions

Decoding and encoding undo each other: an instruction is what its word stands
for, and a word that stands for an instruction is that instruction's word.
-/

namespace Chip8

namespace Word

variable {k : Nat}

theorem opcode_ofAddress (hk : k < 16) (a : Address) : (opcode (ofAddress k a)).val = k := by
  have := a.isLt
  simp only [opcode, toNat_ofAddress hk, Fin.val_ofNat]
  omega

theorem nnn_ofAddress (hk : k < 16) (a : Address) : nnn (ofAddress k a) = a := by
  have := a.isLt
  apply Fin.ext
  simp only [nnn, toNat_ofAddress hk, Fin.val_ofNat]
  omega

theorem opcode_ofByte (hk : k < 16) (r : Register) (b : UInt8) :
    (opcode (ofByte k r b)).val = k := by
  have := r.isLt
  have := b.toNat_lt
  simp only [opcode, toNat_ofByte hk, Fin.val_ofNat]
  omega

theorem x_ofByte (hk : k < 16) (r : Register) (b : UInt8) : x (ofByte k r b) = r := by
  have := r.isLt
  have := b.toNat_lt
  apply Fin.ext
  simp only [x, toNat_ofByte hk, Fin.val_ofNat]
  omega

theorem nn_ofByte (hk : k < 16) (r : Register) (b : UInt8) : nn (ofByte k r b) = b := by
  have := b.toNat_lt
  apply UInt8.toNat_inj.1
  simp only [nn, UInt16.toNat_toUInt8, toNat_ofByte hk]
  omega

variable (a b c : Fin 16)

theorem opcode_ofNibbles (hk : k < 16) : (opcode (ofNibbles k a b c)).val = k := by
  simp only [opcode, toNat_ofNibbles hk, Fin.val_ofNat]
  omega

theorem x_ofNibbles (hk : k < 16) : x (ofNibbles k a b c) = a := by
  apply Fin.ext
  simp only [x, toNat_ofNibbles hk, Fin.val_ofNat]
  omega

theorem y_ofNibbles (hk : k < 16) : y (ofNibbles k a b c) = b := by
  apply Fin.ext
  simp only [y, toNat_ofNibbles hk, Fin.val_ofNat]
  omega

theorem n_ofNibbles (hk : k < 16) : n (ofNibbles k a b c) = c := by
  apply Fin.ext
  simp only [n, toNat_ofNibbles hk, Fin.val_ofNat]
  omega

end Word

namespace Arith

theorem ofNibble?_nibble (op : Arith) : ofNibble? op.nibble = some op := by cases op <;> rfl

theorem nibble_of_ofNibble? {n : Fin 16} {op : Arith} (h : ofNibble? n = some op) :
    op.nibble = n := by
  unfold ofNibble? at h
  split at h <;> rename_i hn <;> cases h <;> exact Fin.ext (by rw [hn]; rfl)

end Arith

namespace Instruction

theorem ofWord?_word (i : Instruction) : ofWord? i.word = some i := by
  cases i with
  | system target =>
    obtain ⟨a, clear, back⟩ := target
    simp [ofWord?, word, Word.opcode_ofAddress, Word.nnn_ofAddress, ofRoutine, clear, back]
  | clearScreen => rfl
  | ret => rfl
  | arith op x y =>
    simp [ofWord?, word, Word.opcode_ofNibbles, Word.x_ofNibbles, Word.y_ofNibbles,
      Word.n_ofNibbles, Arith.ofNibble?_nibble]
  | _ =>
    simp [ofWord?, word, Word.opcode_ofAddress, Word.nnn_ofAddress, Word.opcode_ofByte,
      Word.x_ofByte, Word.nn_ofByte, Word.opcode_ofNibbles, Word.x_ofNibbles, Word.y_ofNibbles,
      Word.n_ofNibbles, ofKeyByte?, ofMiscByte?]

theorem word_ofRoutine (a : Address) : (ofRoutine a).word.toNat = a.val := by
  unfold ofRoutine
  split
  · rename_i h
    rw [h]
    rfl
  · split
    · rename_i h
      rw [h]
      rfl
    · simp [word, Word.toNat_ofAddress]

theorem word_of_ofWord? {w : UInt16} {i : Instruction} (h : ofWord? w = some i) : i.word = w := by
  have hw := Word.toNat_eq w
  have hnn := Word.toNat_nn w
  have hnnn := Word.val_nnn w
  apply UInt16.toNat_inj.1
  unfold ofWord? at h
  split at h <;> rename_i ho <;> try simp only [Option.some.injEq] at h <;> subst h
  · rw [word_ofRoutine]
    omega
  all_goals try
    simp [word, Word.toNat_ofAddress, Word.toNat_ofByte, Word.toNat_ofNibbles]
    omega
  · split at h
    · cases h
      simp_all [word, Word.toNat_ofNibbles]
    · cases h
  · obtain ⟨op, hop, rfl⟩ := Option.map_eq_some_iff.1 h
    simp [word, Word.toNat_ofNibbles, Arith.nibble_of_ofNibble? hop]
    omega
  · split at h
    · cases h
      simp_all [word, Word.toNat_ofNibbles]
    · cases h
  · unfold ofKeyByte? at h
    split at h <;> cases h <;> simp [word, Word.toNat_ofByte] <;> omega
  · have ho' : (Word.opcode w).val = 15 := by
      have := (Word.opcode w).isLt
      grind
    unfold ofMiscByte? at h
    split at h <;> cases h <;> simp [word, Word.toNat_ofByte] <;> omega

theorem ofWord?_eq_some_iff {w : UInt16} {i : Instruction} :
    ofWord? w = some i ↔ i.word = w :=
  ⟨word_of_ofWord?, fun h => h ▸ ofWord?_word i⟩

end Instruction

end Chip8
