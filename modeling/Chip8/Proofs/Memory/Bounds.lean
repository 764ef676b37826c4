import Chip8.Proofs.Cycle.Step
import Chip8.Proofs.Run.Reach

/-! # Bounds of memory

A range is refused if one of its bytes lies outside memory, and so an instruction
that reads or writes from the index on fails if one of its bytes does. A range
without bytes is refused as well if it starts neither in memory nor right behind
it: a sprite of no rows can be drawn from the end of memory but from nowhere
beyond.
-/

namespace Chip8

namespace Memory

/-- Some byte of a range lies outside memory. -/
def Leaves (address length : Int) : Prop :=
  ∃ b, address ≤ b ∧ b < address + length ∧ ¬ (0 ≤ b ∧ b ≤ 0xFFF)

/-- A range has no bytes and starts neither in memory nor right behind it. -/
def Astray (address length : Int) : Prop := length = 0 ∧ ¬ (0 ≤ address ∧ address ≤ 0x1000)

variable {a n : Int}

theorem leaves_iff : Leaves a n ↔ 0 < n ∧ (a < 0 ∨ 0x1000 < a + n) := by
  constructor
  · rintro ⟨b, hab, hb, hout⟩
    omega
  · rintro ⟨hn, ha | hend⟩
    · exact ⟨a, by omega, by omega, by omega⟩
    · exact ⟨a + n - 1, by omega, by omega, by omega⟩

theorem checkRange_eq_error_iff {f : Fault} (hn : 0 ≤ n) :
    checkRange a n = .error f ↔ f = .outOfBounds a n ∧ (Leaves a n ∨ Astray a n) := by
  have hends : a < 0 ∨ size < a + n ↔ Leaves a n ∨ Astray a n := by
    rw [leaves_iff, Astray, size]
    omega
  rw [← hends]
  unfold checkRange
  split
  · rename_i hout
    simp only [hout, and_true, Except.error.injEq, eq_comm]
  · rename_i hin
    simp only [hin, and_false, reduceCtorEq]

end Memory

namespace Instruction

/-- The number of bytes that an instruction reads or writes from the index on, if it does either. -/
def reach? : Instruction → Option Nat
  | draw _ _ height => some height.val
  | digits _ => some 3
  | storeRegisters x | loadRegisters x => some (x.val + 1)
  | _ => none

variable {i : Instruction} {n : Nat}

theorem fault?_of_reach? (h : i.reach? = some n) (s : State) : i.fault? s = s.windowFault? n := by
  cases i with
  | draw | digits | storeRegisters | loadRegisters =>
    cases h
    rfl
  | _ => cases h

theorem eq_draw_of_reach?_zero (h : i.reach? = some 0) : ∃ x y, i = .draw x y 0 := by
  cases i with
  | draw x y height =>
    have hheight : height.val = 0 := Option.some.inj h
    exact ⟨x, y, by rw [show height = 0 from Fin.ext hheight]⟩
  | _ => cases h

end Instruction

namespace State

open Memory

variable {s : State} {i : Instruction} {n : Nat} {f : Fault}

theorem windowFault?_eq_some_iff :
    s.windowFault? n = some f ↔ checkRange s.index.toNat n = .error f := by
  rw [windowFault?, checkRange_natCast, size]
  split <;> simp

theorem step_eq_error_iff_of_reach? (hd : s.due? = some i) (hr : i.reach? = some n) :
    s.step = .error f ↔ checkRange s.index.toNat n = .error f := by
  obtain ⟨hw, hp⟩ := due?_eq_some_iff.mp hd
  have hfault : i.fault? s.advance = s.windowFault? n := Instruction.fault?_of_reach? hr s.advance
  rw [step_eq_error_iff, hp, ← windowFault?_eq_some_iff, ← hfault]
  simp [hw]

/-- Bounds are checked by the byte. A range is refused exactly if one of its bytes lies outside
memory or if it has no bytes and is astray, and a cycle that executes an instruction which reads or
writes from the index on fails exactly if the range of its bytes is refused. Of these instructions
only a sprite of no rows can fail while all of its bytes lie in memory. -/
theorem bounds_checked (a : Int) {k : Int} (hk : 0 ≤ k) (s : State) :
    (∀ f, checkRange a k = .error f ↔ f = .outOfBounds a k ∧ (Leaves a k ∨ Astray a k)) ∧
    ∀ i n, s.due? = some i → i.reach? = some n →
      (∀ f, s.step = .error f ↔ f = .outOfBounds s.index.toNat n ∧
        (Leaves s.index.toNat n ∨ Astray s.index.toNat n)) ∧
      (Astray s.index.toNat n → ∃ x y, i = .draw x y 0) := by
  refine ⟨fun f => checkRange_eq_error_iff hk, fun i n hd hr => ⟨fun f => ?_, ?_⟩⟩
  · rw [step_eq_error_iff_of_reach? hd hr]
    exact checkRange_eq_error_iff (Int.natCast_nonneg n)
  · rintro ⟨hn, -⟩
    obtain rfl : n = 0 := Int.natCast_eq_zero.mp hn
    exact Instruction.eq_draw_of_reach?_zero hr

theorem bounds_checked_sprite :
    (0 : Int) ≤ 2 ∧ checkRange 0xFFF 2 = .error (.outOfBounds 0xFFF 2) ∧
    ∃ s t, (Machine.ofProgram [0xAF, 0xFF, 0xD0, 0x02]).reset = .ok s ∧
      s.follow [.cycle] = .ok t ∧ t.due? = some (.draw 0 0 2) ∧ Leaves t.index.toNat 2 ∧
      t.step = .error (.outOfBounds 0xFFF 2) := by
  have hrun : ((Machine.ofProgram [0xAF, 0xFF, 0xD0, 0x02]).reset.toOption.any fun s =>
      (s.follow [.cycle]).toOption.any fun t =>
        t.due? == some (.draw 0 0 2) && t.index.toNat == 0xFFF) = true := by
    decide +kernel
  obtain ⟨s, hs, hrun⟩ := exists_ok_of_any hrun
  obtain ⟨t, ht, hrun⟩ := exists_ok_of_any hrun
  simp only [Bool.and_eq_true, beq_iff_eq] at hrun
  obtain ⟨hd, hindex⟩ := hrun
  have hlength : (0 : Int) ≤ 2 := by decide
  have hleaves : Leaves 0xFFF 2 := ⟨0x1000, by omega, by omega, by omega⟩
  obtain ⟨hrange, hstep⟩ := bounds_checked 0xFFF hlength t
  have hfault := ((hstep _ 2 hd rfl).1 (.outOfBounds 0xFFF 2)).mpr
  rw [hindex] at hfault
  exact ⟨hlength, (hrange _).mpr ⟨rfl, .inl hleaves⟩, s, t, hs, ht, hd, hindex ▸ hleaves,
    hfault ⟨rfl, .inl hleaves⟩⟩

/-- A range of no bytes is refused although none of them lies outside memory, and so a sprite of no
rows cannot be drawn from an index two behind the last byte. -/
theorem bounds_checked_empty :
    ¬ (∀ a n : Int, 0 ≤ n →
      (checkRange a n = .error (.outOfBounds a n) ↔ Leaves a n)) ∧
    ∃ s t, (Machine.ofProgram [0x60, 0x02, 0xAF, 0xFF, 0xF0, 0x1E, 0xD0, 0x00]).reset = .ok s ∧
      s.follow [.cycle, .cycle, .cycle] = .ok t ∧ t.due? = some (.draw 0 0 0) ∧
      ¬ Leaves t.index.toNat 0 ∧ t.step = .error (.outOfBounds 0x1001 0) := by
  have hnone : ∀ a : Int, ¬ Leaves a 0 := fun a ⟨b, _, _, _⟩ => by omega
  refine ⟨fun h => hnone 0x1001 ((h 0x1001 0 (by decide)).mp rfl), ?_⟩
  have hrun : ((Machine.ofProgram
      [0x60, 0x02, 0xAF, 0xFF, 0xF0, 0x1E, 0xD0, 0x00]).reset.toOption.any fun s =>
        (s.follow [.cycle, .cycle, .cycle]).toOption.any fun t =>
          t.due? == some (.draw 0 0 0) && errorOf? t.step == some (.outOfBounds 0x1001 0)) =
            true := by
    decide +kernel
  obtain ⟨s, hs, hrun⟩ := exists_ok_of_any hrun
  obtain ⟨t, ht, hrun⟩ := exists_ok_of_any hrun
  simp only [Bool.and_eq_true, beq_iff_eq, errorOf?_eq_some_iff] at hrun
  exact ⟨s, t, hs, ht, hrun.1, hnone _, hrun.2⟩

end State

end Chip8
