import Chip8.Proofs.Run.Coherence

/-! # Calls return

While a routine runs, the addresses saved before its call and its own return
address stay at the bottom of the stack, whatever it calls, jumps to or stores.
So when the stack is first as shallow as before the call, the routine has just
returned behind the call, and the stack is what it was.
-/

namespace Chip8

namespace State

variable {s t u : State} {x : Stimulus} {xs : List Stimulus} {base : List UInt16}

theorem StackMove.suffix {i : Option Instruction} (h : StackMove s t i)
    (hs : base <:+ s.stack.toList) (hd : t.stack.depth + 1 ≠ base.length) :
    base <:+ t.stack.toList := by
  cases h with
  | call hpush =>
    rw [CallStack.toList_push hpush]
    exact hs.trans (List.suffix_cons _ _)
  | ret hpop =>
    rw [CallStack.toList_pop hpop, List.suffix_cons_iff] at hs
    rcases hs with he | hs
    · exact absurd (by rw [he, List.length_cons, CallStack.length_toList]) hd
    · exact hs
  | keep _ _ he => exact he ▸ hs

theorem StackMove.ret_of_depth_lt {i : Option Instruction} (h : StackMove s t i)
    (hs : base <:+ s.stack.toList) (hd : t.stack.depth + 1 = base.length) :
    i = some .ret ∧ base = t.pc :: t.stack.toList := by
  have hle := hs.length_le
  rw [CallStack.length_toList] at hle
  cases h with
  | call hpush =>
    have := CallStack.depth_push hpush
    omega
  | ret hpop =>
    refine ⟨rfl, ?_⟩
    rw [← CallStack.toList_pop hpop]
    refine hs.eq_of_length ?_
    rw [CallStack.length_toList, CallStack.depth_pop hpop, hd]
  | keep _ _ he =>
    rw [he] at hd
    omega

/-- A run that never takes back the last of the addresses keeps them all. -/
theorem suffix_follow (hs : base <:+ s.stack.toList)
    (hd : ∀ ys, ys <+: xs → ∀ v, s.follow ys = .ok v → v.stack.depth + 1 ≠ base.length)
    (h : s.follow xs = .ok t) : base <:+ t.stack.toList := by
  induction xs generalizing s with
  | nil => exact follow_nil.mp h ▸ hs
  | cons x xs ih =>
    obtain ⟨u, hu, ht⟩ := follow_cons.mp h
    have hx : [x] <+: x :: xs := List.cons_prefix_cons.mpr ⟨rfl, List.nil_prefix⟩
    refine ih ((stackMove_respond hu).suffix hs (hd [x] hx u (follow_singleton.mpr hu))) ?_ ht
    intro ys hys v hv
    exact hd (x :: ys) (List.cons_prefix_cons.mpr ⟨rfl, hys⟩) v (follow_cons.mpr ⟨u, hu, hv⟩)

end State

namespace Machine

open State

variable {m : Machine} {s : State}

/-- A routine that a call enters is left by the return behind that call, with the stack as it was;
and only calls and returns change the depth of the stack, by one. -/
theorem calls_return (hr : m.Reaches s) :
    (∀ target s₁ xs u x t, s.due? = some (.call target) → s.step = .ok s₁ →
      s₁.follow xs = .ok u → u.respond x = .ok t →
      (∀ ys, ys <+: xs → ∀ v, s₁.follow ys = .ok v → v.stack.depth ≠ s.stack.depth) →
      t.stack.depth = s.stack.depth →
      x = .cycle ∧ u.due? = some .ret ∧ t.pc.toNat = s.pc.toNat + 2 ∧ t.stack = s.stack) ∧
    ∀ x t, s.respond x = .ok t →
      (t.stack.depth = s.stack.depth + 1 ∧ ∃ target, s.executed? x = some (.call target)) ∨
      (t.stack.depth + 1 = s.stack.depth ∧ s.executed? x = some .ret) ∨
      (t.stack.depth = s.stack.depth ∧ (∀ target, s.executed? x ≠ some (.call target)) ∧
        s.executed? x ≠ some .ret) := by
  refine ⟨?_, fun x t h => (stackMove_respond h).depth⟩
  intro target s₁ xs u x t hd h₁ hu ht hfirst hback
  obtain ⟨hlt, hl₁⟩ := toList_stack_of_call hd h₁
  have hlen : s₁.stack.toList.length = s.stack.depth + 1 := by
    rw [hl₁, List.length_cons, CallStack.length_toList]
  have hsuffix : s₁.stack.toList <:+ u.stack.toList := by
    refine suffix_follow List.suffix_rfl (fun ys hys v hv => ?_) hu
    have := hfirst ys hys v hv
    omega
  obtain ⟨hret, htop⟩ := (stackMove_respond ht).ret_of_depth_lt hsuffix (by omega)
  obtain ⟨hx, hdue⟩ := executed?_eq_some_iff.mp hret
  rw [hl₁] at htop
  obtain ⟨hpc, hrest⟩ := List.cons.inj htop
  have hrun : s.follow (.cycle :: (xs ++ [x])) = .ok t :=
    follow_cons.mpr ⟨s₁, h₁, follow_concat.mpr ⟨u, hu, ht⟩⟩
  have hreach : m.Reaches t := hr.follow hrun
  refine ⟨hx, hdue, ?_, ?_⟩
  · rw [← hpc, UInt16.toNat_ofNat']
    omega
  · exact hreach.coherent.stack.clean.eq_of_toList hr.coherent.stack.clean hrest.symm

theorem calls_return_from_start :
    ∃ s s₁ u t, (ofProgram [0x22, 0x06, 0, 0, 0, 0, 0x00, 0xEE]).Reaches s ∧
      s.due? = some (.call 0x206) ∧ s.step = .ok s₁ ∧ s₁.follow [.tick] = .ok u ∧
      u.respond .cycle = .ok t ∧ s₁.stack.depth = 1 ∧ u.stack.depth = 1 ∧
      t.stack.depth = s.stack.depth ∧ u.due? = some .ret ∧ t.pc.toNat = s.pc.toNat + 2 ∧
      t.stack = s.stack := by
  have hrun : ((ofProgram [0x22, 0x06, 0, 0, 0, 0, 0x00, 0xEE]).reset.toOption.any fun s =>
      s.due? == some (.call 0x206) && s.stack.depth == 0 && s.step.toOption.any fun s₁ =>
        s₁.stack.depth == 1 && (s₁.follow [.tick]).toOption.any fun u =>
          u.stack.depth == 1 && (u.respond .cycle).toOption.any fun t =>
            t.stack.depth == 0) = true := by
    decide +kernel
  obtain ⟨s, h₀, hs⟩ := exists_ok_of_any hrun
  simp only [Bool.and_eq_true, beq_iff_eq] at hs
  obtain ⟨⟨hd, hs0⟩, hs⟩ := hs
  obtain ⟨s₁, h₁, hs₁⟩ := exists_ok_of_any hs
  simp only [Bool.and_eq_true, beq_iff_eq] at hs₁
  obtain ⟨hd₁, hs₁⟩ := hs₁
  obtain ⟨u, hu, hu'⟩ := exists_ok_of_any hs₁
  simp only [Bool.and_eq_true, beq_iff_eq] at hu'
  obtain ⟨hdu, hu'⟩ := hu'
  obtain ⟨t, ht, hdt⟩ := exists_ok_of_any hu'
  have hback : t.stack.depth = s.stack.depth := (beq_iff_eq.mp hdt).trans hs0.symm
  have hr : (ofProgram [0x22, 0x06, 0, 0, 0, 0, 0x00, 0xEE]).Reaches s := ⟨s, [], h₀, rfl⟩
  have hfirst : ∀ ys, ys <+: [Stimulus.tick] → ∀ v, s₁.follow ys = .ok v →
      v.stack.depth ≠ s.stack.depth := by
    intro ys hys v hv
    rcases List.prefix_cons_iff.mp hys with rfl | ⟨zs, rfl, hzs⟩
    · cases follow_nil.mp hv
      omega
    · rw [List.prefix_nil.mp hzs, hu] at hv
      cases hv
      omega
  obtain ⟨_, hret, hpc, hstack⟩ := (calls_return hr).1 _ s₁ _ u _ t hd h₁ hu ht hfirst hback
  exact ⟨s, s₁, u, t, hr, hd, h₁, hu, ht, hd₁, hdu, hback, hret, hpc, hstack⟩

end Machine

end Chip8
