import Chip8.Proofs.Run.Footprint

/-! # Saving and restoring registers

The two instructions that move `V0` to `VX` between the registers and memory undo
each other: what one of them saves the other restores, whatever happened to the
registers in between, and a range that is loaded and stored again is what it was.
-/

namespace Chip8

open Instruction

namespace State

variable {s t : State} {x r : Register} {values : List UInt8}

/-! ## Bytes -/

theorem reg_setRegisters_stored (s t : State) (x r : Register) :
    (t.setRegisters ((storeRegisters x).stored s)).reg r =
      if r ≤ x then s.reg r else t.reg r := by
  split
  · rename_i hle
    rw [reg_setRegisters, getElem?_stored_registers s hle]
    rfl
  · rename_i hgt
    apply reg_setRegisters_of_length_le
    rw [length_stored_registers]
    exact Nat.lt_of_not_le hgt

theorem stored_setRegisters (s : State) (h : values.length = x.val + 1) :
    (storeRegisters x).stored (s.setRegisters values) = values := by
  have hlength : ((storeRegisters x).stored (s.setRegisters values)).length = values.length := by
    rw [length_stored_registers, h]
  refine List.ext_getElem? fun i => ?_
  rcases Nat.lt_or_ge i values.length with hi | hi
  · let r : Register := ⟨i, by omega⟩
    have hr : r ≤ x := Nat.le_of_lt_succ (hi.trans_eq h)
    rw [getElem?_stored_registers _ hr, reg_setRegisters, List.getElem?_eq_getElem hi]
    rfl
  · rw [List.getElem?_eq_none hi, List.getElem?_eq_none (hlength.trans_le hi)]

/-! ## Transfers -/

/-- The registers `V0` to `VX` fit between the index and the end of memory. -/
def Fits (s : State) (x : Register) : Prop := s.index.toNat + x.val + 1 ≤ 4096

/-- The index stays or moves behind the registers `V0` to `VX`, as the dialect has it. -/
def MovesIndex (s : State) (x : Register) (t : State) : Prop :=
  t.index.toNat = if s.dialect.keepsIndex then s.index.toNat else s.index.toNat + x.val + 1

theorem Fits.windowFault? (h : s.Fits x) : s.windowFault? (x.val + 1) = none :=
  if_neg (Nat.not_lt.mpr h)

theorem Fits.of_index (h : s.Fits x) (hi : t.index = s.index) : t.Fits x := by
  rw [Fits, hi]
  exact h

theorem windowFault?_of_not_fits (h : ¬ s.Fits x) :
    s.windowFault? (x.val + 1) = some (.outOfBounds s.index.toNat (x.val + 1 : Nat)) :=
  if_pos (Nat.not_le.mp h)

theorem executeWord_misc {i : Instruction} {nn : UInt8} {low : Nat}
    (hword : i.word = Word.ofByte 0xF x nn) (hlow : nn.toNat = low) :
    s.executeWord (0xF000 + 0x100 * x.val + low) = i.execute s := by
  have hnumber : (i.word.toNat : Int) = 0xF000 + 0x100 * x.val + low := by
    rw [hword, Word.toNat_ofByte (by decide), hlow]
    omega
  rw [← hnumber, executeWord_word]

theorem executeWord_transfer {i : Instruction} {nn : UInt8} {low : Nat} (h : s.Fits x)
    (hword : i.word = Word.ofByte 0xF x nn) (hlow : nn.toNat = low)
    (hfault : i.fault? s = s.windowFault? (x.val + 1))
    (hindex : i.indexAfter s = s.movedIndex x) :
    s.executeWord (0xF000 + 0x100 * x.val + low) = .ok (i.after s) ∧
      s.MovesIndex x (i.after s) := by
  constructor
  · rw [executeWord_misc hword hlow, execute_eq, hfault, h.windowFault?]
  · rw [MovesIndex, after_index, hindex]
    exact toNat_movedIndex h.windowFault?

theorem executeWord_storeRegisters (h : s.Fits x) :
    s.executeWord (0xF000 + 0x100 * x.val + 0x55) = .ok ((storeRegisters x).after s) ∧
      s.MovesIndex x ((storeRegisters x).after s) :=
  executeWord_transfer h rfl rfl rfl rfl

theorem executeWord_storeRegisters_of_not_fits (h : ¬ s.Fits x) :
    s.executeWord (0xF000 + 0x100 * x.val + 0x55) =
      .error (.outOfBounds s.index.toNat (x.val + 1 : Nat)) := by
  have hfault : (storeRegisters x).fault? s = s.windowFault? (x.val + 1) := rfl
  have hword : s.executeWord (0xF000 + 0x100 * x.val + (0x55 : Nat)) =
      (storeRegisters x).execute s := executeWord_misc rfl rfl
  rw [execute_eq, hfault, windowFault?_of_not_fits h] at hword
  exact hword

theorem executeWord_loadRegisters (h : s.Fits x) :
    s.executeWord (0xF000 + 0x100 * x.val + 0x65) = .ok ((loadRegisters x).after s) ∧
      s.MovesIndex x ((loadRegisters x).after s) :=
  executeWord_transfer h rfl rfl rfl rfl

/-! ## Round trips -/

theorem reg_load_after_store (h : s.Fits x) (hm : t.memory = ((storeRegisters x).after s).memory)
    (hi : t.index = s.index) (r : Register) :
    ((loadRegisters x).after t).reg r = if r ≤ x then s.reg r else t.reg r := by
  have hlength := length_stored_registers s x
  have hwindow : t.window (x.val + 1) = (storeRegisters x).stored s := by
    rw [window, hm, hi, ← hlength]
    exact Memory.slice_store _ _ _ (hlength ▸ h)
  rw [← reg_setRegisters_stored, ← hwindow]
  rfl

theorem memory_store_after_load (hm : t.memory = ((loadRegisters x).after s).memory)
    (hr : t.registers = ((loadRegisters x).after s).registers) (hi : t.index = s.index) :
    ((storeRegisters x).after t).memory = s.memory := by
  have hlength : (s.window (x.val + 1)).length = x.val + 1 := Memory.length_slice ..
  have hstored : (storeRegisters x).stored t = s.window (x.val + 1) := by
    rw [← stored_setRegisters s hlength, stored, hr]
    rfl
  have hread : ((loadRegisters x).after s).memory = s.memory := after_memory s _
  rw [after_memory, hstored, hm, hread, hi]
  exact Memory.store_slice ..

/-- Saving and restoring registers are inverse to each other. Registers that are saved come back
from the same index, whatever became of them and of the rest of the machine, and leave memory and
those behind `VX` alone; memory that registers are restored from is the same once they are saved
there again. In either case the index ends where the dialect moves it. -/
theorem save_restore_inverse (h : s.Fits x) :
    (∃ t, s.executeWord (0xF000 + 0x100 * x.val + 0x55) = .ok t ∧ s.MovesIndex x t ∧
      t = { s with memory := t.memory, index := t.index } ∧
      ∀ u : State, u.memory = t.memory → u.index = s.index →
        ∃ v, u.executeWord (0xF000 + 0x100 * x.val + 0x65) = .ok v ∧ u.MovesIndex x v ∧
          v = { u with registers := v.registers, index := v.index } ∧
          ∀ r, v.reg r = if r ≤ x then s.reg r else u.reg r) ∧
    ∃ t, s.executeWord (0xF000 + 0x100 * x.val + 0x65) = .ok t ∧ s.MovesIndex x t ∧
      t = { s with registers := t.registers, index := t.index } ∧
      ∀ u : State, u.memory = t.memory → u.registers = t.registers → u.index = s.index →
        ∃ v, u.executeWord (0xF000 + 0x100 * x.val + 0x55) = .ok v ∧ u.MovesIndex x v ∧
          v = { u with memory := s.memory, index := v.index } := by
  obtain ⟨hstore, hmoved⟩ := executeWord_storeRegisters h
  obtain ⟨hload, hmoved'⟩ := executeWord_loadRegisters h
  constructor
  · refine ⟨_, hstore, hmoved, rfl, fun u hm hi => ?_⟩
    obtain ⟨hback, hback'⟩ := executeWord_loadRegisters (h.of_index hi)
    exact ⟨_, hback, hback', rfl, reg_load_after_store h hm hi⟩
  · refine ⟨_, hload, hmoved', rfl, fun u hm hr hi => ?_⟩
    obtain ⟨hback, hback'⟩ := executeWord_storeRegisters (h.of_index hi)
    refine ⟨_, hback, hback', ?_⟩
    rw [← memory_store_after_load hm hr hi]
    rfl

theorem save_restore_inverse_end :
    let s := { State.initial (Generator.ofSeed 0) (.ofFlags true false false false false) with
      registers := Vector.ofFn fun r => UInt8.ofNat (17 * r), index := 0xFF0 }
    s.Fits 15 ∧ ∃ t, s.executeWord 0xFF55 = .ok t ∧ t.index.toNat = 0x1000 ∧
      ∃ u, { t with registers := Vector.replicate 16 0, index := 0xFF0 }.executeWord 0xFF65 =
        .ok u ∧ u.reg 15 = 0xFF ∧ u.memory = t.memory ∧ u.index.toNat = 0x1000 := by
  intro s
  have hfits : s.Fits 15 := Nat.le_refl 4096
  obtain ⟨⟨t, ht, hmoved, hkept, hback⟩, -⟩ := save_restore_inverse hfits
  have hmoves : t.dialect.keepsIndex = false := by rw [hkept]; rfl
  obtain ⟨u, hu, hmoved', hkept', hreg⟩ :=
    hback { t with registers := Vector.replicate 16 0, index := 0xFF0 } rfl rfl
  refine ⟨hfits, t, ht, hmoved, u, hu, hreg 15, ?_, ?_⟩
  · rw [hkept']
  · rw [hmoved']
    simp only [hmoves]
    rfl

end State

end Chip8
