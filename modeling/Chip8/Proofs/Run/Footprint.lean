import Chip8.Proofs.Arithmetic
import Chip8.Proofs.Run.KeyWait
import Mathlib.Tactic.ByContra

/-! # The footprint of a cycle

What an executed instruction may touch among the registers, the index and the
wait for a key. A byte that overflows and an index that wraps around leave no
trace in `VF`, which is in reach of computations with a flag, of drawings and of
instructions that have it among their registers.
-/

namespace Chip8

def Arith.writesFlag (d : Dialect) : Arith → Bool
  | set => false
  | or | and | xor => d.logicClearsFlag
  | add | sub | shiftRight | subFrom | shiftLeft => true

namespace Instruction

/-- The registers that an instruction may change. -/
inductive MayWrite (s : State) : Instruction → Register → Prop
  | setByte {x : Register} {value : UInt8} : MayWrite s (.setByte x value) x
  | addByte {x : Register} {value : UInt8} : MayWrite s (.addByte x value) x
  | random {x : Register} {mask : UInt8} : MayWrite s (.random x mask) x
  | getDelay {x : Register} : MayWrite s (.getDelay x) x
  | waitKey {x : Register} : ¬ s.Silent → MayWrite s (.waitKey x) x
  | result {op : Arith} {x y : Register} : MayWrite s (.arith op x y) x
  | flag {op : Arith} {x y : Register} : op.writesFlag s.dialect = true →
      MayWrite s (.arith op x y) 15
  | collision {x y : Register} {height : Fin 16} : MayWrite s (.draw x y height) 15
  | load {x r : Register} : r ≤ x → MayWrite s (.loadRegisters x) r

def pointsTo? (s : State) : Instruction → Option Nat
  | setIndex target => some target.val
  | addIndex x => some ((s.index.toNat + (s.reg x).toNat) % 65536)
  | glyph x => some (0x50 + 5 * ((s.reg x).toNat % 16))
  | storeRegisters x | loadRegisters x =>
    if s.dialect.keepsIndex then none else some (s.index.toNat + x.val + 1)
  | _ => none

end Instruction

open Instruction

namespace State

variable {s t : State} {i : Instruction} {x y r : Register} {v : UInt8} {op : Arith}

/-! ## Registers -/

theorem isSome_outcome (d : Dialect) (a b : UInt8) (op : Arith) :
    (op.outcome d a b).2.isSome = op.writesFlag d := by
  cases op with
  | or | and | xor =>
    cases h : d.logicClearsFlag <;>
      simp [Arith.outcome, Arith.writesFlag, Arith.isLogic, Arith.apply, h]
  | _ => rfl

theorem reg_compute_of_ne (hx : r ≠ x) (hf : op.writesFlag s.dialect = true → r ≠ 15) :
    (s.compute op x y).reg r = s.reg r := by
  have hflag := isSome_outcome s.dialect (s.reg x) (s.reg y) op
  rw [reg_compute]
  unfold regWith
  split
  · rename_i flag hsome
    rw [hsome] at hflag
    rw [if_neg (hf hflag.symm), if_neg hx]
  · exact if_neg hx

theorem reg_setRegisters_of_length_le {values : List UInt8} (h : values.length ≤ r.val) :
    (s.setRegisters values).reg r = s.reg r := by
  rw [reg_setRegisters, List.getElem?_eq_none h]
  rfl

theorem reg_eq_or_of_setReg (ht : t.registers = (s.setReg x v).registers) (h : MayWrite s i x) :
    t.reg r = s.reg r ∨ MayWrite s i r := by
  by_cases hr : r = x
  · exact .inr (hr ▸ h)
  · have hreg : t.reg r = (s.setReg x v).reg r := congrArg (·[r]) ht
    exact .inl (hreg.trans (reg_setReg_of_ne hr))

theorem reg_after_eq_or (s : State) (i : Instruction) (r : Register) :
    (i.after s.advance).reg r = s.reg r ∨ MayWrite s i r := by
  cases i with
  | setByte x value => exact reg_eq_or_of_setReg rfl .setByte
  | addByte x value => exact reg_eq_or_of_setReg rfl .addByte
  | random x mask => exact reg_eq_or_of_setReg rfl .random
  | getDelay x => exact reg_eq_or_of_setReg rfl .getDelay
  | draw x y height => exact reg_eq_or_of_setReg rfl .collision
  | arith op x y =>
    by_cases hx : r = x
    · exact .inr (hx ▸ .result)
    · by_cases hf : op.writesFlag s.dialect = true ∧ r = 15
      · obtain ⟨hw, rfl⟩ := hf
        exact .inr (.flag hw)
      · exact .inl (reg_compute_of_ne (s := s.advance) hx fun hw hr => hf ⟨hw, hr⟩)
  | waitKey x =>
    have hregisters : ((waitKey x).after s.advance).registers =
        s.firstKey?.elim s.registers fun key => (s.setReg x (UInt8.ofNat key)).registers := rfl
    cases hk : s.firstKey? with
    | none =>
      rw [hk] at hregisters
      exact .inl (congrArg (·[r]) hregisters)
    | some key =>
      rw [hk] at hregisters
      refine reg_eq_or_of_setReg hregisters (.waitKey fun hsilent => ?_)
      rw [firstKey?_eq_none_iff.mpr hsilent] at hk
      cases hk
  | loadRegisters x =>
    rcases Nat.lt_or_ge x.val r.val with hlt | hle
    · refine .inl (reg_setRegisters_of_length_le (s := s.advance) ?_)
      rw [window, Memory.length_slice]
      exact hlt
    · exact .inr (.load hle)
  | _ => exact .inl rfl

/-! ## The index -/

theorem toNat_movedIndex (hf : s.windowFault? (x.val + 1) = none) :
    (s.movedIndex x).toNat =
      if s.dialect.keepsIndex then s.index.toNat else s.index.toNat + x.val + 1 := by
  have hend : s.index.toNat + (x.val + 1) ≤ 4096 := by
    by_contra hgt
    rw [windowFault?, if_pos (by omega)] at hf
    cases hf
  unfold movedIndex
  split
  · rfl
  · rw [UInt16.toNat_add, UInt16.toNat_ofNat']
    omega

theorem toNat_indexAfter (hf : i.fault? s.advance = none) :
    (i.indexAfter s.advance).toNat = (i.pointsTo? s).getD s.index.toNat := by
  cases i with
  | setIndex target =>
    have := target.isLt
    change (UInt16.ofNat target.val).toNat = target.val
    rw [UInt16.toNat_ofNat']
    omega
  | addIndex x =>
    change (s.index + (s.reg x).toUInt16).toNat = (s.index.toNat + (s.reg x).toNat) % 65536
    rw [UInt16.toNat_add, UInt8.toNat_toUInt16]
  | glyph x =>
    change (UInt16.ofNat (0x50 + 5 * ((s.reg x).toNat % 16))).toNat =
      0x50 + 5 * ((s.reg x).toNat % 16)
    rw [UInt16.toNat_ofNat']
    omega
  | storeRegisters x | loadRegisters x =>
    refine (toNat_movedIndex (s := s.advance) hf).trans ?_
    simp only [pointsTo?, advance_dialect, advance_index]
    split <;> rfl
  | _ => rfl

/-! ## The wait for a key -/

theorem waitingAfter_eq_some_iff (hw : s.waiting = none) :
    i.waitingAfter s.advance = some x ↔ i = .waitKey x ∧ s.Silent := by
  cases i with
  | waitKey y =>
    have hafter : (waitKey y).waitingAfter s.advance =
        s.firstKey?.elim (some y) fun _ => s.waiting := rfl
    rw [hafter, ← firstKey?_eq_none_iff]
    cases s.firstKey? with
    | none => simp
    | some key => simp [hw]
  | _ => simp [waitingAfter, hw]

/-! ## Cycles -/

/-- What an instruction leaves alone among the registers, the index and the wait for a key. -/
structure Footprint (s : State) (i : Instruction) (t : State) : Prop where
  keypad : t.keypad = s.keypad
  dialect : t.dialect = s.dialect
  waiting : ∀ x, t.waiting = some x ↔ i = .waitKey x ∧ s.Silent
  index : t.index.toNat = (i.pointsTo? s).getD s.index.toNat
  registers : ∀ r, t.reg r ≠ s.reg r → MayWrite s i r

theorem footprint_after (hw : s.waiting = none) (hf : i.fault? s.advance = none) :
    Footprint s i (i.after s.advance) where
  keypad := rfl
  dialect := rfl
  waiting _ := waitingAfter_eq_some_iff hw
  index := toNat_indexAfter hf
  registers r hr := (reg_after_eq_or s i r).resolve_left hr

/-- Every cycle that succeeds while no key is awaited executes the instruction whose word lies at
the program counter and stays within its footprint. In particular neither a byte that is added to
another register nor an addition to the index reaches `VF`. -/
theorem step_stays_in_footprint (hw : s.waiting = none) (h : s.step = .ok t) :
    ∃ i : Instruction, s.memory.word s.pc.toNat = i.word ∧ Footprint s i t ∧
      (∀ x value, i = .addByte x value → x ≠ 15 → t.reg 15 = s.reg 15) ∧
      ∀ x, i = .addIndex x → ∀ r, t.reg r = s.reg r := by
  rcases step_eq_ok_iff.mp h with ⟨hwait, -⟩ | ⟨i, hi, hf, rfl⟩
  · exact absurd hw hwait
  · have hfoot := footprint_after hw hf
    refine ⟨i, (peek_eq_ok_iff.mp (due?_eq_some_iff.mp hi).2).2, hfoot, ?_, ?_⟩
    · rintro x value rfl hx
      by_contra hne
      cases hfoot.registers 15 hne
      exact hx rfl
    · rintro x rfl r
      by_contra hne
      cases hfoot.registers r hne

theorem step_stays_in_footprint_load :
    let m := { Machine.ofProgram [0xA0, 0x50, 0xF2, 0x65] with
      dialect := .ofFlags false false false true true }
    ∃ s₀ s t, m.reset = .ok s₀ ∧ s₀.follow [.setKey 7 true, .cycle] = .ok s ∧
      s.waiting = none ∧ s.step = .ok t ∧ t.reg 0 = 0xF0 ∧
      Footprint s (.loadRegisters 2) t ∧ t.index.toNat = 0x53 ∧ t.reg 3 = s.reg 3 := by
  intro m
  have hrun : (m.reset.toOption.any fun s₀ =>
      (s₀.follow [.setKey 7 true, .cycle]).toOption.any fun s => s.step.toOption.any fun t =>
        s.waiting == none && s.memory.word s.pc.toNat == (loadRegisters 2).word &&
          s.index.toNat == 0x50 && !s.dialect.keepsIndex && t.reg 0 == 0xF0) = true := by
    decide +kernel
  obtain ⟨s₀, h₀, hrun⟩ := exists_ok_of_any hrun
  obtain ⟨s, hs, hrun⟩ := exists_ok_of_any hrun
  obtain ⟨t, ht, hrun⟩ := exists_ok_of_any hrun
  simp only [Bool.and_eq_true, beq_iff_eq, Bool.not_eq_true'] at hrun
  obtain ⟨⟨⟨⟨hw, hload⟩, hindex⟩, hmoves⟩, hreg⟩ := hrun
  obtain ⟨i, hword, hfoot, -⟩ := step_stays_in_footprint hw ht
  obtain rfl : i = .loadRegisters 2 := by
    have hi := ofWord?_word i
    rw [← hword, hload, ofWord?_word] at hi
    exact (Option.some.inj hi).symm
  refine ⟨s₀, s, t, h₀, hs, hw, ht, hreg, hfoot, ?_, ?_⟩
  · rw [hfoot.index, pointsTo?, hmoves, hindex]
    rfl
  · by_contra hne
    cases hfoot.registers 3 hne with
    | load hle => exact absurd hle (by decide)

end State

end Chip8
