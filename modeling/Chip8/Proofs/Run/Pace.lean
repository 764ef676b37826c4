import Chip8.Machine.Run
import Chip8.Proofs.Run.History

/-! # Blocks of cycles

A frame starts with a block of cycles. Either all of them succeed or one is the
first to fail, and this settles what a machine makes of the block and of the
frame, whatever it reports on the way.
-/

namespace Chip8

namespace State

variable {s t u v : State} {f g : Fault} {n k j : Nat}

def cyclesOnly (n : Nat) : List Stimulus := .replicate n .cycle

theorem follow_cycles_succ :
    s.follow (cyclesOnly (n + 1)) = .ok t ↔
      ∃ u, s.step = .ok u ∧ u.follow (cyclesOnly n) = .ok t := follow_cons

/-- Of a block of `n` cycles `k` succeed and lead to a state whose next cycle fails. -/
def FailsWithin (s : State) (n k : Nat) (u : State) (f : Fault) : Prop :=
  k < n ∧ s.follow (cyclesOnly k) = .ok u ∧ u.step = .error f

theorem not_failsWithin_zero : ¬ s.FailsWithin 0 k u f := fun h => Nat.not_lt_zero k h.1

theorem failsWithin_succ :
    s.FailsWithin (n + 1) k u f ↔ (k = 0 ∧ s = u ∧ s.step = .error f) ∨
      ∃ j t, k = j + 1 ∧ s.step = .ok t ∧ t.FailsWithin n j u f := by
  constructor
  · rintro ⟨hk, hu, hf⟩
    cases k with
    | zero =>
      obtain rfl := follow_nil.mp hu
      exact .inl ⟨rfl, rfl, hf⟩
    | succ k =>
      obtain ⟨t, ht, hu⟩ := follow_cycles_succ.mp hu
      exact .inr ⟨k, t, rfl, ht, Nat.lt_of_succ_lt_succ hk, hu, hf⟩
  · rintro (⟨rfl, rfl, hf⟩ | ⟨j, t, rfl, ht, hj, hu, hf⟩)
    · exact ⟨Nat.succ_pos n, follow_nil.mpr rfl, hf⟩
    · exact ⟨Nat.succ_lt_succ hj, follow_cycles_succ.mpr ⟨t, ht, hu⟩, hf⟩

theorem succeeds_or_fails (s : State) (n : Nat) :
    (∃ t, s.follow (cyclesOnly n) = .ok t) ∨ ∃ k u f, s.FailsWithin n k u f := by
  induction n generalizing s with
  | zero => exact .inl ⟨s, follow_nil.mpr rfl⟩
  | succ n ih =>
    cases hs : s.step with
    | error f => exact .inr ⟨0, s, f, failsWithin_succ.mpr (.inl ⟨rfl, rfl, hs⟩)⟩
    | ok t =>
      rcases ih t with ⟨u, hu⟩ | ⟨k, u, f, h⟩
      · exact .inl ⟨u, follow_cycles_succ.mpr ⟨t, hs, hu⟩⟩
      · exact .inr ⟨k + 1, u, f, failsWithin_succ.mpr (.inr ⟨k, t, rfl, hs, h⟩)⟩

theorem FailsWithin.not_follow (h : s.FailsWithin n k u f) :
    s.follow (cyclesOnly n) ≠ .ok t := by
  intro ht
  induction n generalizing s k with
  | zero => exact not_failsWithin_zero h
  | succ n ih =>
    obtain ⟨v, hv, ht⟩ := follow_cycles_succ.mp ht
    rcases failsWithin_succ.mp h with ⟨-, -, hf⟩ | ⟨j, w, -, hw, h⟩
    · exact nomatch hv.symm.trans hf
    · obtain rfl := Except.ok.inj (hv.symm.trans hw)
      exact ih h ht

theorem FailsWithin.unique (h : s.FailsWithin n k u f) (h' : s.FailsWithin n j v g) :
    k = j ∧ u = v ∧ f = g := by
  induction n generalizing s k j with
  | zero => exact absurd h not_failsWithin_zero
  | succ n ih =>
    rcases failsWithin_succ.mp h with ⟨rfl, rfl, hf⟩ | ⟨k, t, rfl, ht, h⟩ <;>
      rcases failsWithin_succ.mp h' with ⟨rfl, rfl, hg⟩ | ⟨j, w, rfl, hw, h'⟩
    · exact ⟨rfl, rfl, Except.error.inj (hf.symm.trans hg)⟩
    · exact nomatch hf.symm.trans hw
    · exact nomatch ht.symm.trans hg
    · obtain rfl := Except.ok.inj (ht.symm.trans hw)
      obtain ⟨rfl, hrest⟩ := ih h h'
      exact ⟨rfl, hrest⟩

end State

namespace Machine

variable {m : Machine} {s t u : State} {f : Fault} {n k : Nat}

/-! ## What a machine makes of a block -/

@[simp] theorem executed_announce (m : Machine) (σ : Session) (s : State) :
    (m.announce σ s).executed = σ.executed := by
  unfold announce
  split
  · split <;> rfl
  · rfl

@[simp] theorem step_snd (m : Machine) (σ : Session) (s : State) : (m.step σ s).2 = s.step := by
  unfold step
  cases s.step <;> rfl

theorem step_of_ok (σ : Session) (h : s.step = .ok t) :
    ∃ τ, m.step σ s = (τ, .ok t) ∧ τ.executed = σ.executed + 1 := by
  refine ⟨{ m.announce σ s with executed := (m.announce σ s).executed + 1 }, ?_, ?_⟩
  · simp only [step, h]
  · simp

theorem step_of_error (σ : Session) (h : s.step = .error f) :
    ∃ τ, m.step σ s = (τ, .error f) ∧ τ.executed = σ.executed := by
  refine ⟨(m.announce σ s).report (.fault f s), ?_, ?_⟩
  · simp only [step, h]
  · exact executed_announce m σ s

theorem executed_step_of_error {σ : Session} (hf : (m.step σ s).2 = .error f) :
    (m.step σ s).1.executed = σ.executed := by
  rw [step_snd] at hf
  obtain ⟨τ, hτ, hsame⟩ := step_of_error (m := m) σ hf
  rw [hτ]
  exact hsame

theorem cycles_of_follow (σ : Session) (h : s.follow (State.cyclesOnly n) = .ok t) :
    ∃ τ, m.cycles n σ s = (τ, t, none) ∧ τ.executed = σ.executed + n := by
  induction n generalizing σ s with
  | zero =>
    obtain rfl := State.follow_nil.mp h
    exact ⟨σ, rfl, rfl⟩
  | succ n ih =>
    obtain ⟨u, hu, ht⟩ := State.follow_cycles_succ.mp h
    obtain ⟨τ, hτ, hone⟩ := step_of_ok (m := m) σ hu
    obtain ⟨ρ, hρ, hrest⟩ := ih τ ht
    refine ⟨ρ, ?_, by omega⟩
    simp only [cycles, hτ, hρ]

theorem cycles_of_fails (σ : Session) (h : s.FailsWithin n k u f) :
    ∃ τ, m.cycles n σ s = (τ, u, some f) ∧ τ.executed = σ.executed + k := by
  induction n generalizing σ s k with
  | zero => exact absurd h State.not_failsWithin_zero
  | succ n ih =>
    rcases State.failsWithin_succ.mp h with ⟨rfl, rfl, hf⟩ | ⟨k, v, rfl, hv, h⟩
    · obtain ⟨τ, hτ, hsame⟩ := step_of_error (m := m) σ hf
      refine ⟨τ, ?_, hsame⟩
      simp only [cycles, hτ]
    · obtain ⟨τ, hτ, hone⟩ := step_of_ok (m := m) σ hv
      obtain ⟨ρ, hρ, hrest⟩ := ih τ h
      refine ⟨ρ, ?_, by omega⟩
      simp only [cycles, hτ, hρ]

theorem cycles_add (m : Machine) (i n : Nat) (σ : Session) (s : State) :
    m.cycles (i + n) σ s = match m.cycles i σ s with
      | (τ, t, none) => m.cycles n τ t
      | (τ, t, some f) => (τ, t, some f) := by
  induction i generalizing σ s with
  | zero => rw [Nat.zero_add, cycles]
  | succ i ih =>
    rw [Nat.succ_add, cycles, cycles]
    obtain ⟨τ, r⟩ := m.step σ s
    cases r with
    | error f => rfl
    | ok t => exact ih τ t

theorem cycles_of_step_error {σ τ : Session} {i : Nat} (hi : i < n)
    (hu : m.cycles i σ s = (τ, u, none)) (hf : (m.step τ u).2 = .error f) :
    m.cycles n σ s = ((m.step τ u).1, u, some f) := by
  have hstep : m.step τ u = ((m.step τ u).1, .error f) := Prod.ext rfl hf
  obtain ⟨k, rfl⟩ := Nat.exists_eq_add_of_lt hi
  rw [Nat.add_assoc, cycles_add, hu]
  dsimp only
  rw [cycles, hstep]

/-! ## What a machine makes of a frame -/

theorem eq_whole_of_timesOf {q : Quantity} (h : timesOf q = .ok n) (hn : 0 < n) :
    q = .whole n := by
  cases q with
  | whole i =>
    obtain rfl := Except.ok.inj h
    rw [Int.toNat_of_nonneg (by omega)]
  | real bits => cases h

theorem runFrame_of_follow (σ : Session) (hn : m.frameLength = .ok n)
    (h : s.follow (State.cyclesOnly n) = .ok t) :
    ∃ τ, m.runFrame σ s = (τ, .ok t.tick) ∧ τ.executed = σ.executed + n := by
  obtain ⟨τ, hτ, hsum⟩ := cycles_of_follow (m := m) σ h
  refine ⟨τ, ?_, hsum⟩
  simp only [runFrame, hn, hτ]

theorem runFrame_of_fails (σ : Session) (hn : m.frameLength = .ok n)
    (h : s.FailsWithin n k u f) :
    ∃ τ, m.runFrame σ s = (τ, .error (.fault f)) ∧ τ.executed = σ.executed + k := by
  obtain ⟨τ, hτ, hsum⟩ := cycles_of_fails (m := m) σ h
  refine ⟨τ, ?_, hsum⟩
  simp only [runFrame, hn, hτ]

end Machine

end Chip8
