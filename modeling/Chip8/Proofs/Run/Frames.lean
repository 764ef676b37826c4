import Chip8.Proofs.Run.Drive
import Chip8.Proofs.Run.Reach

/-! # Frames

A run in frames follows a schedule: blocks of cycles with a tick behind each. So
runs can be joined, a run that succeeds makes all the moves of its schedule, and
one that fails has ticked after each whole block before the fault.
-/

namespace Chip8

namespace State

variable {p n : Nat} {xs : List Stimulus}

/-- The schedule of `n` frames of `p` cycles. -/
def paced (p : Nat) : Nat → List Stimulus
  | 0 => []
  | n + 1 => cyclesOnly p ++ .tick :: paced p n

@[simp] theorem count_cycle_cyclesOnly (n : Nat) : (cyclesOnly n).count .cycle = n :=
  List.count_replicate_self

@[simp] theorem count_tick_cyclesOnly (n : Nat) : (cyclesOnly n).count .tick = 0 := by
  simp [cyclesOnly, List.count_replicate]

theorem count_cycle_paced (p n : Nat) : (paced p n).count .cycle = n * p := by
  induction n with
  | zero => simp [paced]
  | succ n ih => simp [paced, ih, Nat.succ_mul, Nat.add_comm]

theorem count_tick_paced (p n : Nat) : (paced p n).count .tick = n := by
  induction n with
  | zero => rfl
  | succ n ih => simp [paced, ih]

theorem eq_cyclesOnly_of_isPrefix (h : xs ++ [.cycle] <+: cyclesOnly p) :
    ∃ k < p, xs = cyclesOnly k := by
  obtain ⟨hle, heq⟩ := List.prefix_replicate_iff.mp h
  rw [List.length_append, List.length_singleton, List.replicate_succ'] at heq
  rw [List.length_append, List.length_singleton] at hle
  exact ⟨xs.length, hle, (List.append_inj' heq rfl).1⟩

theorem prefix_paced_cases (h : xs ++ [.cycle] <+: paced p (n + 1)) :
    (∃ k < p, xs = cyclesOnly k) ∨
      ∃ ys, xs = cyclesOnly p ++ [.tick] ++ ys ∧ ys ++ [.cycle] <+: paced p n := by
  have hsplit : paced p (n + 1) = cyclesOnly p ++ [.tick] ++ paced p n := by simp [paced]
  rw [hsplit] at h
  rcases List.prefix_or_prefix_of_prefix h (List.prefix_append _ _) with hin | hbehind
  · rcases List.prefix_concat_iff.mp hin with heq | hin
    · exact nomatch (List.append_inj' heq rfl).2
    · exact .inl (eq_cyclesOnly_of_isPrefix hin)
  · rcases List.prefix_concat_iff.mp hbehind with heq | ⟨ys, rfl⟩
    · exact nomatch (List.append_inj' heq rfl).2
    · rw [List.append_assoc _ ys, List.prefix_append_right_inj] at h
      exact .inr ⟨ys, rfl, h⟩

theorem count_tick_of_isPrefix (h : xs ++ [.cycle] <+: paced p n) :
    xs.count .cycle < n * p ∧ xs.count .tick = xs.count .cycle / p := by
  induction n generalizing xs with
  | zero => simp [paced] at h
  | succ n ih =>
    rw [Nat.succ_mul]
    rcases prefix_paced_cases h with ⟨k, hk, rfl⟩ | ⟨ys, rfl, hys⟩
    · rw [count_cycle_cyclesOnly, count_tick_cyclesOnly, Nat.div_eq_of_lt hk]
      exact ⟨by omega, rfl⟩
    · obtain ⟨hlt, hticks⟩ := ih hys
      have hp : 0 < p := Nat.pos_of_ne_zero fun hp => by simp [hp] at hlt
      have hcycle : [Stimulus.tick].count .cycle = 0 := rfl
      have htick : [Stimulus.tick].count .tick = 1 := rfl
      simp only [List.count_append, count_cycle_cyclesOnly, count_tick_cyclesOnly, hticks, hcycle,
        htick, Nat.add_zero, Nat.zero_add, Nat.add_div_left _ hp]
      exact ⟨by omega, Nat.add_comm ..⟩

end State

namespace Machine

variable {m : Machine} {n p : Nat} {rate fps : Int}

theorem run_one (m : Machine) (σ : Session) (s : State) : m.run 1 σ s = m.runFrame σ s := by
  rw [run]
  obtain ⟨τ, r⟩ := m.runFrame σ s
  cases r <;> rfl

theorem run_add (m : Machine) (a b : Nat) (σ : Session) (s : State) :
    m.run (a + b) σ s = match m.run a σ s with
      | (τ, .ok t) => m.run b τ t
      | (τ, .error failure) => (τ, .error failure) := by
  induction a generalizing σ s with
  | zero => rw [Nat.zero_add, run]
  | succ a ih =>
    rw [Nat.succ_add, run, run]
    obtain ⟨τ, r⟩ := m.runFrame σ s
    cases r with
    | error failure => rfl
    | ok t => exact ih τ t

theorem follow_cycles (m : Machine) (n : Nat) (σ : Session) (s : State) :
    m.follow (State.cyclesOnly n) σ s = match m.cycles n σ s with
      | (τ, t, none) => (τ, .ok t)
      | (τ, _, some f) => (τ, .error f) := by
  induction n generalizing σ s with
  | zero => rfl
  | succ n ih =>
    change m.follow (.cycle :: State.cyclesOnly n) σ s = _
    rw [follow, cycles, respond]
    obtain ⟨τ, r⟩ := m.step σ s
    cases r with
    | error f => rfl
    | ok t => exact ih τ t

/-- A run in frames follows their schedule. -/
theorem run_eq_follow (hp : m.frameLength = .ok p) (n : Nat) (σ : Session) (s : State) :
    m.run n σ s =
      ((m.follow (State.paced p n) σ s).1, Failure.ofFault (s.follow (State.paced p n))) := by
  rw [← m.follow_snd _ σ s]
  induction n generalizing σ s with
  | zero => rfl
  | succ n ih =>
    rw [State.paced, follow_append, follow_cycles, run, runFrame, hp]
    dsimp only
    obtain ⟨τ, t, r⟩ := m.cycles p σ s
    cases r with
    | none => exact ih τ t.tick
    | some f => rfl

theorem rate_of_pace (hfps : 0 < fps) (hle : fps ≤ rate) :
    fps * max 1 (rate / fps) ≤ rate ∧ rate - fps * max 1 (rate / fps) < fps := by
  have hone : 1 ≤ rate / fps := (Int.le_ediv_iff_mul_le hfps).mpr (by omega)
  rw [Int.max_eq_right hone]
  have hdiv := Int.mul_ediv_add_emod rate fps
  have hmod := Int.emod_nonneg rate (Int.ne_of_gt hfps)
  have hlt := Int.emod_lt_of_pos rate hfps
  omega

theorem fps_pos_of_number (hfps : m.fps = .number fps) : 0 < fps := by
  have h := m.fps_pos
  rw [hfps, Setting.atMost?_number] at h
  simpa using h

/-- Runs in frames can be joined. A run that succeeds makes a block of cycles and a tick for each
of its frames. One that fails has counted the cycles before the fault and ticked after each whole
block of them. -/
theorem frames_compose (hrate : m.dialect.frequency = .number rate) (hfps : m.fps = .number fps)
    (σ : Session) (s : State) :
    (∀ a b, m.run (a + b) σ s = match m.run a σ s with
      | (τ, .ok t) => m.run b τ t
      | (τ, .error failure) => (τ, .error failure)) ∧
    ∃ p : Nat, (p : Int) = max 1 (rate / fps) ∧
      (fps ≤ rate → fps * p ≤ rate ∧ rate - fps * p < fps) ∧
      ∀ n, (State.paced p n).count .cycle = n * p ∧ (State.paced p n).count .tick = n ∧
        ((∃ t, m.run n σ s = ((m.follow (State.paced p n) σ s).1, .ok t) ∧
            s.follow (State.paced p n) = .ok t ∧
            (m.run n σ s).1.executed = σ.executed + n * p) ∨
          ∃ f xs u, m.run n σ s = ((m.follow (State.paced p n) σ s).1, .error (.fault f)) ∧
            xs ++ [.cycle] <+: State.paced p n ∧ s.follow xs = .ok u ∧ u.step = .error f ∧
            (m.run n σ s).1.executed = σ.executed + xs.count .cycle ∧
            xs.count .tick = xs.count .cycle / p) := by
  have hp : (((max 1 (rate / fps)).toNat : Nat) : Int) = max 1 (rate / fps) := by omega
  refine ⟨fun a b => m.run_add a b σ s, _, hp, fun hle => ?_, fun n => ⟨State.count_cycle_paced _ n,
    State.count_tick_paced _ n, ?_⟩⟩
  · rw [hp]
    exact rate_of_pace (fps_pos_of_number hfps) hle
  · rw [run_eq_follow (frameLength_of_numbers hrate hfps)]
    cases h : s.follow (State.paced (max 1 (rate / fps)).toNat n) with
    | ok t =>
      refine .inl ⟨t, rfl, rfl, ?_⟩
      rw [executed_follow h, State.count_cycle_paced]
    | error f =>
      obtain ⟨xs, u, hxs, hu, hf⟩ := State.follow_eq_error_iff.mp h
      exact .inr ⟨f, xs, u, rfl, hxs, hu, hf, executed_follow_of_fails hxs hu hf,
        (State.count_tick_of_isPrefix hxs).2⟩

def thirteenThenReturn : List UInt8 :=
  (List.replicate 13 [0x60, 0x05]).flatten ++ [0x00, 0xEE]

theorem frames_compose_to_fault :
    ∃ σ s xs u, (ofProgram thirteenThenReturn).reset = .ok s ∧
      ((ofProgram thirteenThenReturn).run (1 + 2) σ s).1.executed = σ.executed + 13 ∧
      xs ++ [.cycle] <+: State.paced 11 3 ∧ s.follow xs = .ok u ∧
      u.step = .error .stackUnderflow ∧ xs.count .cycle = 13 ∧ xs.count .tick = 1 := by
  let m := ofProgram thirteenThenReturn
  let σ : Session :=
    ⟨{ logger := .make "Chix8" "CRITICAL" .absent false false (.whole 0) }, .whole 0, 0⟩
  have hrun : (m.reset.toOption.any fun s => (m.run 3 σ s).1.executed == 13 &&
      errorOf? (s.follow (State.paced 11 3)) == some .stackUnderflow) = true := by
    decide +kernel
  obtain ⟨s, hs, hrun⟩ := exists_ok_of_any hrun
  simp only [Bool.and_eq_true, beq_iff_eq, errorOf?_eq_some_iff] at hrun
  obtain ⟨hcount, hfault⟩ := hrun
  have hrate : m.dialect.frequency = .number 700 := rfl
  have hfps : m.fps = .number 60 := rfl
  obtain ⟨-, p, hp, -, hall⟩ := frames_compose hrate hfps σ s
  obtain rfl : p = 11 := by
    have hmax : max 1 ((700 : Int) / 60) = 11 := by decide
    omega
  obtain ⟨-, -, hend⟩ := hall 3
  rcases hend with ⟨t, -, ht, -⟩ | ⟨f, xs, u, -, hxs, hu, hf, hexecuted, hticks⟩
  · rw [ht] at hfault
    cases hfault
  · have hcycles : xs.count .cycle = 13 := by
      have hzero : σ.executed = 0 := rfl
      omega
    obtain rfl : f = .stackUnderflow := by
      have hf' := State.follow_eq_error_iff.mpr ⟨xs, u, hxs, hu, hf⟩
      exact Except.error.inj (hf'.symm.trans hfault)
    exact ⟨σ, s, xs, u, hs, hcount, hxs, hu, hf, hcycles, by rw [hticks, hcycles]⟩

end Machine

end Chip8
