import Chip8.CallStack

/-! # Sound call stacks

Saving and taking back addresses keep every free slot cleared. Such a stack is
determined by the list of its saved addresses.
-/

namespace Chip8.CallStack

variable {s t : CallStack}

/-- Every free slot is cleared. -/
def Clean (s : CallStack) : Prop := ∀ i : Fin 16, s.depth ≤ i → s.slots[i] = 0

/-- The free slots are cleared and the others hold addresses behind an instruction. -/
structure Sound (s : CallStack) : Prop where
  saved : ∀ i : Fin 16, i < s.depth → 0x002 ≤ s.slots[i].toNat ∧ s.slots[i].toNat ≤ 0xFFF
  clean : s.Clean

theorem push_spec {a : Nat} (h : s.push a = .ok t) :
    ∃ hd : s.depth < 16, a < 4096 ∧
      t = ⟨s.slots.set s.depth (UInt16.ofNat a), s.depth + 1, hd⟩ := by
  rw [push_natCast] at h
  split at h
  · rename_i hd
    split at h
    · rename_i ha
      exact ⟨hd, ha, (Except.ok.inj h).symm⟩
    · cases h
  · cases h

theorem pop_spec {a : UInt16} (h : s.pop = .ok (a, t)) :
    ∃ (n : Nat) (hn : n < 16), s.depth = n + 1 ∧ a = s.slots[n] ∧
      t.depth = n ∧ t.slots = s.slots.set n 0 := by
  obtain ⟨slots, depth, hd⟩ := s
  cases depth with
  | zero => cases h
  | succ n =>
    cases h
    exact ⟨n, hd, rfl, rfl, rfl, rfl⟩

theorem depth_push {a : Nat} (h : s.push a = .ok t) : t.depth = s.depth + 1 := by
  obtain ⟨_, _, rfl⟩ := push_spec h
  rfl

theorem depth_pop {a : UInt16} (h : s.pop = .ok (a, t)) : s.depth = t.depth + 1 := by
  obtain ⟨n, _, hs, _, ht, _⟩ := pop_spec h
  rw [hs, ht]

theorem sound_empty : empty.Sound := by
  constructor
  · intro i hi
    exact absurd hi (Nat.not_lt_zero _)
  · intro i _
    simp [empty]

theorem Clean.push {a : Nat} (hs : s.Clean) (h : s.push a = .ok t) : t.Clean := by
  obtain ⟨hd, _, rfl⟩ := push_spec h
  intro i hi
  have hi' : s.depth + 1 ≤ i := hi
  have hne : s.depth ≠ i := by omega
  simp only [Fin.getElem_fin, Vector.getElem_set_ne _ _ hne]
  exact hs i (by omega)

theorem Clean.pop {a : UInt16} (hs : s.Clean) (h : s.pop = .ok (a, t)) : t.Clean := by
  obtain ⟨n, hn, hd, _, ht, hslots⟩ := pop_spec h
  intro i hi
  rw [ht] at hi
  simp only [hslots, Fin.getElem_fin, Vector.getElem_set]
  split
  · rfl
  · exact hs i (by omega)

theorem Sound.push {a : Nat} (hs : s.Sound) (ha : 2 ≤ a) (h : s.push a = .ok t) : t.Sound := by
  refine ⟨?_, hs.clean.push h⟩
  obtain ⟨hd, hlt, rfl⟩ := push_spec h
  intro i hi
  have hi' : i < s.depth + 1 := hi
  simp only [Fin.getElem_fin, Vector.getElem_set]
  split
  · rw [UInt16.toNat_ofNat']
    omega
  · exact hs.saved i (by omega)

theorem Sound.pop {a : UInt16} (hs : s.Sound) (h : s.pop = .ok (a, t)) :
    t.Sound ∧ 0x002 ≤ a.toNat ∧ a.toNat ≤ 0xFFF := by
  obtain ⟨n, hn, hd, rfl, ht, hslots⟩ := pop_spec h
  refine ⟨⟨?_, hs.clean.pop h⟩, hs.saved ⟨n, hn⟩ (by simp only; omega)⟩
  intro i hi
  rw [ht] at hi
  have hne : n ≠ i := by omega
  simp only [hslots, Fin.getElem_fin, Vector.getElem_set_ne _ _ hne]
  exact hs.saved i (by omega)

theorem Clean.eq_of_toList (hs : s.Clean) (ht : t.Clean) (h : s.toList = t.toList) : s = t := by
  have hd : s.depth = t.depth := by rw [← length_toList s, h, length_toList]
  have hslots : s.slots = t.slots := by
    unfold toList at h
    rw [List.reverse_inj, ← hd] at h
    apply Vector.ext
    intro i hi
    by_cases hlt : i < s.depth
    · have hget := congrArg (·[i]?) h
      simpa [List.getElem?_take, hlt, hi] using hget
    · have hsi := hs ⟨i, hi⟩ (by simp only; omega)
      have hti := ht ⟨i, hi⟩ (by simp only; omega)
      exact hsi.trans hti.symm
  obtain ⟨slots, depth, _⟩ := s
  obtain ⟨slots', depth', _⟩ := t
  cases hd
  cases hslots
  rfl

end Chip8.CallStack
