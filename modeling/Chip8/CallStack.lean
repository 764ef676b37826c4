import Chip8.Memory

/-! # The call stack

Sixteen slots for return addresses, filled from the bottom. A slot that is
given back is cleared.
-/

namespace Chip8

/-- The return addresses of the calls in progress. -/
structure CallStack where
  slots : Vector UInt16 16
  depth : Nat
  depth_le : depth ≤ 16
  deriving DecidableEq

namespace CallStack

def capacity : Nat := 16

def empty : CallStack := ⟨Vector.replicate 16 0, 0, by omega⟩

def ofList (addresses : List UInt16) : CallStack :=
  ⟨Vector.ofFn fun i => addresses[i.val]?.getD 0, min addresses.length 16, Nat.min_le_right ..⟩

def push (s : CallStack) (address : Int) : Except Fault CallStack :=
  if h : s.depth < 16 then do
    Memory.checkRange address 1
    return ⟨s.slots.set s.depth (UInt16.ofInt address), s.depth + 1, h⟩
  else .error (.stackOverflow capacity)

def pop (s : CallStack) : Except Fault (UInt16 × CallStack) :=
  match s with
  | ⟨_, 0, _⟩ => .error .stackUnderflow
  | ⟨slots, n + 1, h⟩ => .ok (slots[n], ⟨slots.set n 0, n, by omega⟩)

theorem ofInt_natCast (a : Nat) : UInt16.ofInt a = UInt16.ofNat a := by
  apply UInt16.toNat_inj.1
  simp only [UInt16.ofInt, UInt16.toNat_ofNat']
  omega

theorem push_natCast (s : CallStack) (a : Nat) :
    s.push a =
      if h : s.depth < 16 then
        if a < 4096 then .ok ⟨s.slots.set s.depth (UInt16.ofNat a), s.depth + 1, h⟩
        else .error (.outOfBounds a 1)
      else .error (.stackOverflow 16) := by
  unfold push
  rw [show (1 : Int) = (1 : Nat) from rfl, Memory.checkRange_natCast, Memory.size]
  by_cases h : s.depth < 16
  · by_cases ha : a < 4096
    · have hr : ¬ 4096 < a + 1 := by omega
      simp [h, ha, hr, ofInt_natCast, bind, Except.bind, pure, Except.pure]
    · have hr : 4096 < a + 1 := by omega
      simp [h, ha, hr, bind, Except.bind]
  · simp [h, capacity]

theorem pop_of_empty {s : CallStack} (h : s.depth = 0) : s.pop = .error .stackUnderflow := by
  obtain ⟨slots, depth, _⟩ := s
  cases h
  rfl

theorem pop_of_ne_empty {s : CallStack} (h : s.depth ≠ 0) : ∃ a t, s.pop = .ok (a, t) := by
  obtain ⟨slots, depth, _⟩ := s
  cases depth with
  | zero => exact absurd rfl h
  | succ n => exact ⟨_, _, rfl⟩

def toList (s : CallStack) : List UInt16 := (s.slots.toList.take s.depth).reverse

theorem length_toList (s : CallStack) : s.toList.length = s.depth := by
  simp [toList, s.depth_le]

theorem toList_push {s t : CallStack} {a : Int} (h : s.push a = .ok t) :
    t.toList = UInt16.ofInt a :: s.toList := by
  unfold push at h
  split at h
  · rename_i hd
    obtain ⟨_, -, h⟩ := exists_of_bind_eq_ok h
    obtain rfl := Except.ok.inj h
    simp only [toList, Vector.toList_set]
    rw [List.take_add_one]
    simp [hd, List.take_set_of_le]
  · cases h

theorem toList_pop {s t : CallStack} {a : UInt16} (h : s.pop = .ok (a, t)) :
    s.toList = a :: t.toList := by
  obtain ⟨slots, n, hn⟩ := s
  cases n with
  | zero => simp [pop] at h
  | succ n =>
    simp only [pop, Except.ok.injEq, Prod.mk.injEq] at h
    obtain ⟨rfl, rfl⟩ := h
    have hn' : n < 16 := by omega
    simp only [toList, Vector.toList_set]
    rw [List.take_add_one]
    simp [hn', List.take_set_of_le]

end CallStack

end Chip8
