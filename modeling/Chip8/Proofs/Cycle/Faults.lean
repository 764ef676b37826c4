import Chip8.Proofs.Cycle.Step
import Chip8.Proofs.Instruction.Grammar

/-! # The faults of a cycle

Every reason for which a cycle can fail, told by the word at the program counter
and the state, in the order in which the reasons are noticed. A cycle fails
exactly for the first reason that applies, and never while the machine waits for
a key.
-/

namespace Chip8

def Fault.first? (rows : List (Bool × Fault)) : Option Fault :=
  (rows.find? Prod.fst).map Prod.snd

@[simp] theorem Fault.first?_nil : first? [] = none := rfl

@[simp] theorem Fault.first?_cons (applies : Bool) (f : Fault) (rows : List (Bool × Fault)) :
    first? ((applies, f) :: rows) = if applies then some f else first? rows := by
  cases applies <;> rfl

open Word

namespace Instruction

variable (s : State)

def faultRows (w : UInt16) : List (Bool × Fault) :=
  let depth := s.stack.depth
  let index := s.index.toNat
  let target := (nnn w).val + (s.reg (if s.dialect.jumpsByX then x w else 0)).toNat
  [(w == 0x00EE && depth == 0, .stackUnderflow),
   ((opcode w).val == 0x2 && depth == 16, .stackOverflow 16),
   ((opcode w).val == 0x2 && depth < 16 && s.pc.toNat == 0xFFE, .outOfBounds 0x1000 1),
   ((opcode w).val == 0xB && 0x1000 ≤ target, .outOfBounds target 1),
   ((opcode w).val == 0xD && 4096 < index + (n w).val, .outOfBounds index (n w).val),
   ((opcode w).val == 0xF && (nn w).toNat == 0x33 && 4096 < index + 3, .outOfBounds index 3),
   ((opcode w).val == 0xF && ((nn w).toNat == 0x55 || (nn w).toNat == 0x65) &&
      4096 < index + (x w).val + 1, .outOfBounds index ((x w).val + 1))]

variable {s}

theorem beq_ret_of_opcode_ne {w : UInt16} (h : (opcode w).val ≠ 0) : (w == 0x00EE) = false := by
  apply beq_eq_false_iff_ne.mpr
  rintro rfl
  exact h rfl

theorem x_ofAddress {k : Nat} (hk : k < 16) (a : Address) :
    x (ofAddress k a) = Fin.ofNat 16 (a.val / 256) := by
  have := a.isLt
  apply Fin.ext
  simp only [x, toNat_ofAddress hk, Fin.val_ofNat]
  omega

theorem first?_faultRows_system (target : Routine) :
    Fault.first? (faultRows s (system target).word) = none := by
  obtain ⟨a, _, back⟩ := target
  have hne : (ofAddress 0 a == 0x00EE) = false := by
    apply beq_eq_false_iff_ne.mpr
    intro h
    apply back
    rw [← nnn_ofAddress (k := 0) (by omega) a, h]
    rfl
  simp [faultRows, word, opcode_ofAddress, hne]

theorem first?_faultRows_call (hp : s.pc.toNat ≤ 0xFFE) (target : Address) :
    Fault.first? (faultRows s (call target).word) = (call target).fault? s.advance := by
  have ha := State.toNat_advance_pc hp
  have hd := s.stack.depth_le
  have hlt : s.stack.depth < 16 ↔ ¬ s.stack.depth = 16 := by omega
  have hend : 0x1000 ≤ s.advance.pc.toNat ↔ s.pc.toNat = 0xFFE := by omega
  simp only [faultRows, word, Fault.first?_cons, Fault.first?_nil, fault?, hend,
    State.advance_stack, hlt]
  by_cases hfull : s.stack.depth = 16
  · simp [hfull, opcode_ofAddress, beq_ret_of_opcode_ne]
  · by_cases hpc : s.pc.toNat = 0xFFE <;>
      simp [hfull, hpc, opcode_ofAddress, beq_ret_of_opcode_ne]

theorem first?_faultRows (hp : s.pc.toNat ≤ 0xFFE) (i : Instruction) :
    Fault.first? (faultRows s i.word) = i.fault? s.advance := by
  cases i with
  | system target => exact first?_faultRows_system target
  | clearScreen => rfl
  | ret =>
    have ho : opcode 0x00EE = 0 := rfl
    simp [faultRows, word, fault?, ho]
  | call target => exact first?_faultRows_call hp target
  | jumpOffset target =>
    simp [faultRows, word, opcode_ofAddress, nnn_ofAddress, x_ofAddress, beq_ret_of_opcode_ne,
      fault?, State.offsetTarget, State.offsetRegister]
  | jump | setIndex =>
    simp [faultRows, word, opcode_ofAddress, beq_ret_of_opcode_ne, fault?]
  | draw | skipEq | arith | skipNe =>
    simp [faultRows, word, opcode_ofNibbles, n_ofNibbles, beq_ret_of_opcode_ne, fault?,
      State.windowFault?]
  | _ =>
    simp [faultRows, word, opcode_ofByte, x_ofByte, nn_ofByte, beq_ret_of_opcode_ne, fault?,
      State.windowFault?, Nat.add_assoc]

end Instruction

namespace State

/-- The reasons for which a cycle fails, each with its fault; the first one that applies counts. -/
def faultTable (s : State) : List (Bool × Fault) :=
  let w := s.memory.word s.pc.toNat
  (0xFFE < s.pc.toNat, .outOfBounds s.pc.toNat 2) ::
    (!isInstruction w, .invalidOpcode w.toNat) :: Instruction.faultRows s w

theorem step_eq_error_iff_first? (s : State) (f : Fault) :
    s.step = .error f ↔ s.waiting = none ∧ Fault.first? s.faultTable = some f := by
  rw [step_eq_error_iff, faultTable, peek_eq]
  refine and_congr_right fun _ => ?_
  by_cases hpc : 0xFFE < s.pc.toNat
  · simp [hpc]
  · simp only [hpc, if_false, Fault.first?_cons, decide_false, Bool.false_eq_true]
    cases hi : isInstruction (s.memory.word s.pc.toNat) with
    | false => simp [Instruction.decodeWord_of_not_isInstruction hi]
    | true =>
      obtain ⟨i, hi⟩ := Instruction.exists_of_isInstruction hi
      have hw := Instruction.word_of_ofWord? hi
      rw [decodeWord_eq_ok_iff.mpr hw.symm, ← hw, Instruction.first?_faultRows (by omega)]
      simp

/-- A cycle fails for the first reason of its table that applies and succeeds otherwise. -/
theorem step_fails_by_table (s : State) :
    (∀ f, s.step = .error f ↔ s.waiting = none ∧ Fault.first? s.faultTable = some f) ∧
      ((∃ t, s.step = .ok t) ↔ s.waiting ≠ none ∨ ∀ row ∈ s.faultTable, row.1 = false) := by
  refine ⟨step_eq_error_iff_first? s, ?_⟩
  have hnone : Fault.first? s.faultTable = none ↔ ∀ row ∈ s.faultTable, row.1 = false := by
    simp [Fault.first?]
  rw [← hnone]
  constructor
  · rintro ⟨t, ht⟩
    by_cases hw : s.waiting = none
    · refine .inr (Option.eq_none_iff_forall_ne_some.mpr fun f hf => ?_)
      have he := (step_eq_error_iff_first? s f).mpr ⟨hw, hf⟩
      rw [ht] at he
      cases he
    · exact .inl hw
  · intro h
    cases hs : s.step with
    | ok t => exact ⟨t, rfl⟩
    | error f =>
      obtain ⟨hw, hf⟩ := (step_eq_error_iff_first? s f).mp hs
      rcases h with h | h
      · exact absurd hw h
      · rw [h] at hf
        cases hf

end State

end Chip8
