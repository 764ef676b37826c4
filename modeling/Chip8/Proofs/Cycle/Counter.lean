import Chip8.Proofs.Cycle.Calls

/-! # The program counter

Where an instruction leads, in numbers that do not wrap around. A cycle that
succeeds puts exactly that number into the program counter.
-/

namespace Chip8

namespace Instruction

variable {s : State} {i : Instruction}

/-- Where an instruction at the program counter leads. -/
def leadsTo (s : State) : Instruction → Nat
  | ret => (s.stack.toList.headD 0).toNat
  | jump target | call target => target.val
  | jumpOffset target => s.offsetTarget target
  | i => s.pc.toNat + if i.skips s then 4 else 2

theorem offsetTarget_lt_of_fault? {target : Address} (h : (jumpOffset target).fault? s = none) :
    s.offsetTarget target < 0x1000 := by
  rcases Nat.lt_or_ge (s.offsetTarget target) 0x1000 with hlt | hge
  · exact hlt
  · simp [fault?, hge] at h

theorem toNat_pcAfter_of_plain (hp : s.pc.toNat ≤ 0xFFE) (c : Bool) :
    (if c then s.advance.pc + 2 else s.advance.pc).toNat = s.pc.toNat + if c then 4 else 2 := by
  have ha := State.toNat_advance_pc hp
  cases c with
  | false => exact ha
  | true =>
    have h2 : (2 : UInt16).toNat = 2 := rfl
    simp only [if_true, UInt16.toNat_add]
    omega

theorem toNat_pcAfter (hp : s.pc.toNat ≤ 0xFFE) (hf : i.fault? s.advance = none) :
    (i.pcAfter s.advance).toNat = i.leadsTo s := by
  have hplain := toNat_pcAfter_of_plain hp (i.skips s.advance)
  cases i with
  | ret =>
    obtain ⟨a, t, hpop⟩ := exists_pop_of_fault?_ret hf
    have hl := CallStack.toList_pop hpop
    rw [State.advance_stack] at hpop hl
    simp only [pcAfter, leadsTo, State.advance_stack, hpop, hl, List.headD_cons]
  | jump target =>
    have := target.isLt
    simp only [pcAfter, leadsTo, UInt16.toNat_ofNat']
    omega
  | call target =>
    have := target.isLt
    simp only [pcAfter, leadsTo, UInt16.toNat_ofNat']
    omega
  | jumpOffset target =>
    have hlt := offsetTarget_lt_of_fault? hf
    have he : s.advance.offsetTarget target = s.offsetTarget target := rfl
    rw [he] at hlt
    simp only [pcAfter, leadsTo, he, UInt16.toNat_ofNat']
    omega
  | _ => exact hplain

theorem leadsTo_le (hp : s.pc.toNat ≤ 0xFFE) (hs : s.stack.Sound)
    (hf : i.fault? s.advance = none) : i.leadsTo s ≤ 0x1002 := by
  cases i with
  | ret =>
    obtain ⟨a, t, hpop⟩ := exists_pop_of_fault?_ret hf
    rw [State.advance_stack] at hpop
    simp only [leadsTo, CallStack.toList_pop hpop, List.headD_cons]
    have := (hs.pop hpop).2
    omega
  | jump target =>
    have := target.isLt
    simp only [leadsTo]
    omega
  | call target =>
    have := target.isLt
    simp only [leadsTo]
    omega
  | jumpOffset target =>
    have hlt : s.offsetTarget target < 0x1000 := offsetTarget_lt_of_fault? hf
    simp only [leadsTo]
    omega
  | _ =>
    simp only [leadsTo]
    split <;> omega

end Instruction

theorem State.toNat_pc_of_step {s t : State} {i : Instruction} (hd : s.due? = some i)
    (h : s.step = .ok t) : t.pc.toNat = i.leadsTo s := by
  obtain ⟨hw, hpeek⟩ := State.due?_eq_some_iff.mp hd
  rcases State.step_eq_ok_iff.mp h with ⟨hw', _⟩ | ⟨j, hj, hf, rfl⟩
  · exact absurd hw hw'
  · obtain rfl : i = j := Option.some.inj (hd.symm.trans hj)
    exact Instruction.toNat_pcAfter (State.peek_eq_ok_iff.mp hpeek).1 hf

end Chip8
