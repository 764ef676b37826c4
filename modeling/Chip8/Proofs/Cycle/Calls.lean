import Chip8.Proofs.Cycle.Step
import Chip8.Proofs.Stack

/-! # Calls and returns

A call saves the address behind it, a return takes back the address saved last,
and no other move of a machine reaches its stack.
-/

namespace Chip8

namespace Instruction

variable {s : State}

theorem exists_pop_of_fault?_ret (h : ret.fault? s = none) :
    ∃ a t, s.stack.pop = .ok (a, t) := by
  apply CallStack.pop_of_ne_empty
  intro hd
  simp [fault?, hd] at h

theorem exists_push_of_fault?_call {target : Address} (h : (call target).fault? s = none) :
    ∃ t, s.stack.push s.pc.toNat = .ok t := by
  have hd := s.stack.depth_le
  by_cases hfull : s.stack.depth = 16
  · simp [fault?, hfull] at h
  · by_cases hpc : 0x1000 ≤ s.pc.toNat
    · simp [fault?, hfull, hpc] at h
    · rw [CallStack.push_natCast, dif_pos (by omega), if_pos (by omega)]
      exact ⟨_, rfl⟩

end Instruction

namespace State

variable {s t : State} {x : Stimulus}

/-- What a move does to the stack: a call saves, a return takes back, all else leaves it. -/
inductive StackMove (s t : State) : Option Instruction → Prop
  | call {target : Address} :
      s.stack.push (s.pc.toNat + 2 : Nat) = .ok t.stack → StackMove s t (some (.call target))
  | ret : s.stack.pop = .ok (t.pc, t.stack) → StackMove s t (some .ret)
  | keep {i : Option Instruction} :
      (∀ target, i ≠ some (.call target)) → i ≠ some .ret → t.stack = s.stack → StackMove s t i

theorem stackMove_after {i : Instruction} (hp : s.pc.toNat ≤ 0xFFE)
    (hf : i.fault? s.advance = none) : StackMove s (i.after s.advance) (some i) := by
  cases i with
  | ret =>
    obtain ⟨a, t, hpop⟩ := Instruction.exists_pop_of_fault?_ret hf
    refine .ret ?_
    simp only [Instruction.after_pc, Instruction.after_stack, Instruction.pcAfter,
      Instruction.stackAfter, hpop]
    exact hpop
  | call target =>
    obtain ⟨t, hpush⟩ := Instruction.exists_push_of_fault?_call hf
    refine .call ?_
    simp only [Instruction.after_stack, Instruction.stackAfter, hpush]
    rw [← toNat_advance_pc hp]
    exact hpush
  | _ => exact .keep (fun _ => by simp) (by simp) (Instruction.after_stack _ _)

theorem stackMove_respond (h : s.respond x = .ok t) : StackMove s t (s.executed? x) := by
  rcases respond_cases h with ⟨i, hi, hf, rfl⟩ | ⟨hi, hu⟩
  · rw [hi]
    exact stackMove_after (pc_le_of_executed? hi) hf
  · rw [hi]
    exact .keep (fun _ => by simp) (by simp) hu.stack

theorem toList_stack_of_call {target : Address} (hd : s.due? = some (.call target))
    (h : s.step = .ok t) :
    s.pc.toNat + 2 < 4096 ∧
      t.stack.toList = UInt16.ofNat (s.pc.toNat + 2) :: s.stack.toList := by
  have hm : StackMove s t (some (.call target)) := hd ▸ stackMove_respond (x := .cycle) h
  cases hm with
  | call hpush =>
    obtain ⟨_, hlt, _⟩ := CallStack.push_spec hpush
    have hl := CallStack.toList_push hpush
    exact ⟨hlt, by rw [hl, CallStack.ofInt_natCast]⟩
  | keep hcall _ _ => exact absurd rfl (hcall target)

namespace StackMove

variable {i : Option Instruction}

theorem sound (h : StackMove s t i) (hs : s.stack.Sound) : t.stack.Sound := by
  cases h with
  | call hpush => exact hs.push (by omega) hpush
  | ret hpop => exact (hs.pop hpop).1
  | keep _ _ he => exact he ▸ hs

theorem depth (h : StackMove s t i) :
    (t.stack.depth = s.stack.depth + 1 ∧ ∃ target, i = some (.call target)) ∨
      (t.stack.depth + 1 = s.stack.depth ∧ i = some .ret) ∨
      (t.stack.depth = s.stack.depth ∧ (∀ target, i ≠ some (.call target)) ∧ i ≠ some .ret) := by
  cases h with
  | call hpush => exact .inl ⟨CallStack.depth_push hpush, _, rfl⟩
  | ret hpop => exact .inr (.inl ⟨(CallStack.depth_pop hpop).symm, rfl⟩)
  | keep hcall hret he => exact .inr (.inr ⟨congrArg _ he, hcall, hret⟩)

end StackMove

end State

end Chip8
