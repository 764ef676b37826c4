import Chip8.Proofs.Cycle.Counter
import Chip8.Proofs.Run.Reach

/-! # Coherent states

The program counter stays within two bytes of memory, saved addresses lie behind
an instruction, and a machine that waits stands behind the instruction that made
it wait. None of the three is kept without the others: a return trusts the stack,
and a call and a wait trust the counter.
-/

namespace Chip8

namespace State

variable {s t : State} {i : Instruction} {x : Stimulus}

/-- What holds of every state that a run reaches. -/
structure Coherent (s : State) : Prop where
  pc_le : s.pc.toNat ≤ 0x1002
  stack : s.stack.Sound
  armed : ∀ r, s.waiting = some r → 2 ≤ s.pc.toNat ∧
    s.memory.readWord (s.pc.toNat - 2 : Nat) = .ok (UInt16.ofNat (0xF00A + 0x100 * r.val))

theorem coherent_initial (g : Generator) (d : Dialect) (m : Memory) :
    Coherent { initial g d with memory := m } := by
  constructor
  · change 0x200 ≤ 0x1002
    omega
  · exact CallStack.sound_empty
  · intro r hr
    cases hr

theorem Untouched.coherent (h : Untouched s t) (hs : s.Coherent) : t.Coherent := by
  constructor
  · rw [h.pc]
    exact hs.pc_le
  · rw [h.stack]
    exact hs.stack
  · intro r hr
    rcases h.waiting with hw | hw
    · rw [h.pc, h.memory]
      exact hs.armed r (hw ▸ hr)
    · rw [hw] at hr
      cases hr

theorem eq_waitKey_of_waitingAfter {r : Register} (hw : s.waiting = none)
    (h : i.waitingAfter s = some r) : i = .waitKey r := by
  cases i with
  | waitKey x =>
    simp only [Instruction.waitingAfter] at h
    cases hk : s.firstKey? with
    | none =>
      rw [hk] at h
      cases h
      rfl
    | some key =>
      rw [hk, Option.elim_some, hw] at h
      cases h
  | _ =>
    simp only [Instruction.waitingAfter, hw] at h
    cases h

theorem word_waitKey (r : Register) :
    (Instruction.waitKey r).word = UInt16.ofNat (0xF00A + 0x100 * r.val) := by
  change UInt16.ofNat (4096 * 0xF + 256 * r.val + 0x0A) = _
  congr 1
  omega

theorem Coherent.execute (hs : s.Coherent) (hd : s.due? = some i)
    (hf : i.fault? s.advance = none) : (i.after s.advance).Coherent := by
  obtain ⟨hw, hpeek⟩ := due?_eq_some_iff.mp hd
  obtain ⟨hp, hword⟩ := peek_eq_ok_iff.mp hpeek
  constructor
  · rw [Instruction.after_pc, Instruction.toNat_pcAfter hp hf]
    exact Instruction.leadsTo_le hp hs.stack hf
  · exact (stackMove_after hp hf).sound hs.stack
  · intro r hr
    obtain rfl := eq_waitKey_of_waitingAfter hw hr
    have hmem : (Instruction.after s.advance (.waitKey r)).memory = s.memory := rfl
    have hpc : (Instruction.after s.advance (.waitKey r)).pc.toNat = s.pc.toNat + 2 :=
      toNat_advance_pc hp
    refine ⟨by omega, ?_⟩
    rw [hmem, hpc, Nat.add_sub_cancel, Memory.readWord_natCast, Memory.size,
      if_neg (by omega), hword, word_waitKey]

theorem Coherent.respond (hs : s.Coherent) (h : s.respond x = .ok t) : t.Coherent := by
  rcases respond_cases h with ⟨i, hi, hf, rfl⟩ | ⟨_, hu⟩
  · cases x with
    | cycle => exact hs.execute hi hf
    | _ => cases hi
  · exact hu.coherent hs

theorem dialect_respond (h : s.respond x = .ok t) : t.dialect = s.dialect := by
  rcases respond_cases h with ⟨i, _, _, rfl⟩ | ⟨_, hu⟩
  · rfl
  · exact hu.dialect

end State

namespace Machine

variable {m : Machine} {s : State} {seed : Int}

theorem Reaches.coherent (h : m.Reaches s) : s.Coherent := by
  refine h.invariant ?_ State.Coherent.respond
  intro s₀ h₀
  obtain ⟨_, seed, _, rfl⟩ := reset_eq_ok_iff.mp h₀
  exact State.coherent_initial ..

theorem Reaches.dialect_eq (h : m.Reaches s) : s.dialect = m.dialect := by
  refine h.invariant (P := fun s => s.dialect = m.dialect) ?_ ?_
  · intro s₀ h₀
    obtain ⟨_, seed, _, rfl⟩ := reset_eq_ok_iff.mp h₀
    rfl
  · intro u v x hu hv
    rw [State.dialect_respond hv, hu]

/-- A program that fits starts, every state of its runs is coherent and keeps the dialect, and no
program counter of a run wraps around. -/
theorem coherent_of_reaches (hp : m.program.length ≤ 3584) (hs : m.seedValue = .ok seed) :
    (∃ s₀, m.reset = .ok s₀) ∧
      ∀ s, m.Reaches s →
        s.Coherent ∧ s.stack.depth ≤ 16 ∧ s.dialect = m.dialect ∧
          (s.pc + 2).toNat = s.pc.toNat + 2 ∧
          ∀ i t, s.due? = some i → s.step = .ok t → t.pc.toNat = i.leadsTo s := by
  refine ⟨exists_reset hp hs, fun s h => ?_⟩
  have hpc := h.coherent.pc_le
  refine ⟨h.coherent, s.stack.depth_le, h.dialect_eq, ?_, fun i t => State.toNat_pc_of_step⟩
  have h2 : (2 : UInt16).toNat = 2 := rfl
  rw [UInt16.toNat_add]
  omega

theorem coherent_of_reaches_wait :
    (ofProgram [0xF3, 0x0A]).program.length ≤ 3584 ∧
      (ofProgram [0xF3, 0x0A]).seedValue = .ok 0 ∧
      ∃ s, (ofProgram [0xF3, 0x0A]).Reaches s ∧ s.waiting = some 3 ∧ s.Coherent := by
  have hall := coherent_of_reaches (m := ofProgram [0xF3, 0x0A]) (by decide) rfl
  have hrun : ((ofProgram [0xF3, 0x0A]).reset.toOption.any fun s₀ =>
      (s₀.follow [.cycle]).toOption.any fun s => s.waiting == some 3) = true := by
    decide +kernel
  obtain ⟨s₀, h₀, hs₀⟩ := exists_ok_of_any hrun
  obtain ⟨s, hs, hw⟩ := exists_ok_of_any hs₀
  have hr : (ofProgram [0xF3, 0x0A]).Reaches s := ⟨s₀, _, h₀, hs⟩
  exact ⟨by decide, rfl, s, hr, beq_iff_eq.mp hw, (hall.2 s hr).1⟩

end Machine

end Chip8
