import Chip8.Proofs.Run.Pace

/-! # Machines on a schedule

A machine follows a schedule as its state does, and reports and counts the cycles.
It stops at the first cycle that fails, which is reported but does not count.
-/

namespace Chip8

namespace Machine

variable {m : Machine} {σ τ : Session} {s t u : State} {f : Fault}
  {x : Stimulus} {xs ys : List Stimulus}

def respond (m : Machine) (σ : Session) (s : State) : Stimulus → Session × Except Fault State
  | .cycle => m.step σ s
  | x => (σ, s.respond x)

def follow (m : Machine) : List Stimulus → Session → State → Session × Except Fault State
  | [], σ, s => (σ, .ok s)
  | x :: xs, σ, s =>
    match m.respond σ s x with
    | (τ, .ok t) => m.follow xs τ t
    | (τ, .error f) => (τ, .error f)

/-! ## The state -/

@[simp] theorem respond_snd (m : Machine) (σ : Session) (s : State) (x : Stimulus) :
    (m.respond σ s x).2 = s.respond x := by
  cases x with
  | cycle => exact m.step_snd σ s
  | _ => rfl

theorem follow_cons_of_ok (hu : s.respond x = .ok u) :
    m.follow (x :: xs) σ s = m.follow xs (m.respond σ s x).1 u := by
  have hx : m.respond σ s x = ((m.respond σ s x).1, .ok u) :=
    Prod.ext rfl ((m.respond_snd σ s x).trans hu)
  rw [follow, hx]

theorem follow_cons_of_error (hf : s.respond x = .error f) :
    m.follow (x :: xs) σ s = ((m.respond σ s x).1, .error f) := by
  have hx : m.respond σ s x = ((m.respond σ s x).1, .error f) :=
    Prod.ext rfl ((m.respond_snd σ s x).trans hf)
  rw [follow, hx]

theorem follow_singleton (m : Machine) (σ : Session) (s : State) (x : Stimulus) :
    m.follow [x] σ s = m.respond σ s x := by
  rw [follow]
  obtain ⟨τ, r⟩ := m.respond σ s x
  cases r <;> rfl

@[simp] theorem follow_snd (m : Machine) (xs : List Stimulus) (σ : Session) (s : State) :
    (m.follow xs σ s).2 = s.follow xs := by
  induction xs generalizing σ s with
  | nil => rfl
  | cons x xs ih =>
    rw [State.follow_cons_eq]
    cases hx : s.respond x with
    | error f => rw [follow_cons_of_error hx]; rfl
    | ok t => rw [follow_cons_of_ok hx]; exact ih _ t

theorem follow_append (m : Machine) (xs ys : List Stimulus) (σ : Session) (s : State) :
    m.follow (xs ++ ys) σ s = match m.follow xs σ s with
      | (τ, .ok t) => m.follow ys τ t
      | (τ, .error f) => (τ, .error f) := by
  induction xs generalizing σ s with
  | nil => rfl
  | cons x xs ih =>
    rw [List.cons_append, follow, follow]
    obtain ⟨τ, r⟩ := m.respond σ s x
    cases r with
    | error f => rfl
    | ok t => exact ih τ t

theorem follow_append_of_ok (hu : s.follow xs = .ok u) :
    m.follow (xs ++ ys) σ s = m.follow ys (m.follow xs σ s).1 u := by
  have hxs : m.follow xs σ s = ((m.follow xs σ s).1, .ok u) :=
    Prod.ext rfl ((m.follow_snd xs σ s).trans hu)
  rw [follow_append, hxs]

theorem follow_of_fails (hxs : xs ++ [.cycle] <+: ys) (hu : s.follow xs = .ok u)
    (hf : u.step = .error f) :
    m.follow ys σ s =
      ((m.announce (m.follow xs σ s).1 u).report (.fault f u), .error f) := by
  obtain ⟨zs, rfl⟩ := hxs
  rw [List.append_assoc, follow_append_of_ok hu, List.singleton_append,
    follow_cons_of_error (show u.respond .cycle = .error f from hf)]
  simp only [respond, step, hf]

/-! ## The count -/

theorem executed_respond (h : s.respond x = .ok t) :
    (m.respond σ s x).1.executed = σ.executed + [x].count .cycle := by
  cases x with
  | cycle =>
    obtain ⟨τ, hτ, hone⟩ := step_of_ok (m := m) σ h
    rw [respond, hτ]
    exact hone
  | _ => rfl

theorem executed_follow (h : s.follow xs = .ok t) :
    (m.follow xs σ s).1.executed = σ.executed + xs.count .cycle := by
  induction xs generalizing σ s with
  | nil => rfl
  | cons x xs ih =>
    obtain ⟨u, hu, ht⟩ := State.follow_cons.mp h
    rw [follow_cons_of_ok hu, ih ht, executed_respond hu, Nat.add_assoc, ← List.count_append]
    rfl

theorem executed_follow_of_fails (hxs : xs ++ [.cycle] <+: ys) (hu : s.follow xs = .ok u)
    (hf : u.step = .error f) :
    (m.follow ys σ s).1.executed = σ.executed + xs.count .cycle := by
  rw [follow_of_fails hxs hu hf, ← executed_follow (m := m) hu]
  exact m.executed_announce _ u

end Machine

end Chip8
