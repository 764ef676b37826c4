import Chip8.Proofs.Cycle.Step

/-! # Histories

A schedule runs move by move, so what every move keeps the whole run keeps. The
history of a run lists the instructions that its cycles set out to execute, each
with the state from which its word was fetched.
-/

namespace Chip8

/-- An instruction that a cycle sets out to execute, and the state before that cycle. -/
structure Execution where
  before : State
  instruction : Instruction

/-- A move of a run and the state before it. -/
structure Move where
  before : State
  stimulus : Stimulus

namespace State

variable {s t u : State} {x : Stimulus} {xs ys : List Stimulus}

/-! ## Runs -/

theorem follow_cons_eq (s : State) (x : Stimulus) (xs : List Stimulus) :
    s.follow (x :: xs) = (s.respond x).bind fun t => t.follow xs :=
  List.foldlM_cons

theorem follow_cons :
    s.follow (x :: xs) = .ok t ↔ ∃ u, s.respond x = .ok u ∧ u.follow xs = .ok t := by
  unfold follow
  rw [List.foldlM_cons]
  cases s.respond x with
  | error f => simp [bind, Except.bind]
  | ok u => simp [bind, Except.bind]

theorem follow_append :
    s.follow (xs ++ ys) = .ok t ↔ ∃ u, s.follow xs = .ok u ∧ u.follow ys = .ok t := by
  induction xs generalizing s with
  | nil => simp [follow, pure, Except.pure]
  | cons x xs ih =>
    simp only [List.cons_append, follow_cons, ih]
    constructor
    · rintro ⟨v, hv, u, hu, ht⟩
      exact ⟨u, ⟨v, hv, hu⟩, ht⟩
    · rintro ⟨u, ⟨v, hv, hu⟩, ht⟩
      exact ⟨v, hv, u, hu, ht⟩

theorem follow_nil : s.follow [] = .ok t ↔ s = t := ⟨Except.ok.inj, congrArg _⟩

theorem follow_singleton : s.follow [x] = .ok t ↔ s.respond x = .ok t := by
  simp [follow_cons, follow_nil]

theorem follow_concat :
    s.follow (xs ++ [x]) = .ok t ↔ ∃ u, s.follow xs = .ok u ∧ u.respond x = .ok t := by
  simp only [follow_append, follow_singleton]

theorem follow_append_eq (s : State) (xs ys : List Stimulus) :
    s.follow (xs ++ ys) = (s.follow xs).bind fun t => t.follow ys :=
  List.foldlM_append

theorem follow_eq_error_iff {f : Fault} :
    s.follow xs = .error f ↔
      ∃ ys u, ys ++ [.cycle] <+: xs ∧ s.follow ys = .ok u ∧ u.step = .error f := by
  constructor
  · intro h
    induction xs generalizing s with
    | nil => cases h
    | cons x xs ih =>
      rw [follow_cons_eq] at h
      cases hx : s.respond x with
      | error g =>
        rw [hx] at h
        cases h
        cases x with
        | cycle => exact ⟨[], s, List.cons_prefix_cons.mpr ⟨rfl, List.nil_prefix⟩, rfl, hx⟩
        | _ => cases hx
      | ok t =>
        rw [hx] at h
        obtain ⟨ys, u, hys, hu, hf⟩ := ih h
        exact ⟨x :: ys, u, List.cons_prefix_cons.mpr ⟨rfl, hys⟩, follow_cons.mpr ⟨t, hx, hu⟩, hf⟩
  · rintro ⟨ys, u, ⟨zs, rfl⟩, hu, hf⟩
    rw [List.append_assoc, follow_append_eq, hu]
    change u.follow (.cycle :: zs) = _
    rw [follow_cons_eq, respond, hf]
    rfl

/-- What every move keeps is kept along every run. -/
theorem follow_invariant {P : State → Prop}
    (hstep : ∀ {u v : State} {x : Stimulus}, P u → u.respond x = .ok v → P v)
    (hs : P s) (h : s.follow xs = .ok t) : P t := by
  induction xs generalizing s with
  | nil => exact follow_nil.mp h ▸ hs
  | cons x xs ih =>
    obtain ⟨u, hu, ht⟩ := follow_cons.mp h
    exact ih (hstep hs hu) ht

/-! ## Executed instructions -/

/-- The executions of a run; one that ends in a fault is the last. -/
def history (s : State) : List Stimulus → List Execution
  | [] => []
  | x :: xs =>
    ((s.executed? x).map (⟨s, ·⟩)).toList ++
      match s.respond x with
      | .ok t => t.history xs
      | .error _ => []

theorem history_append (h : s.follow xs = .ok u) :
    s.history (xs ++ ys) = s.history xs ++ u.history ys := by
  induction xs generalizing s with
  | nil =>
    cases follow_nil.mp h
    rfl
  | cons x xs ih =>
    obtain ⟨v, hv, hu⟩ := follow_cons.mp h
    simp only [List.cons_append, history, hv, ih hu, List.append_assoc]

theorem history_mono (s : State) (xs ys : List Stimulus) :
    s.history xs <+: s.history (xs ++ ys) := by
  induction xs generalizing s with
  | nil => exact List.nil_prefix
  | cons x xs ih =>
    simp only [List.cons_append, history]
    refine List.prefix_append_right_inj _ |>.mpr ?_
    cases s.respond x with
    | error f => exact List.prefix_rfl
    | ok t => exact ih t

theorem history_concat (h : s.follow xs = .ok u) :
    s.history (xs ++ [x]) = s.history xs ++ ((u.executed? x).map (⟨u, ·⟩)).toList := by
  rw [history_append h]
  simp only [history]
  cases u.respond x <;> simp

theorem exists_of_mem_history {e : Execution} (h : e ∈ s.history xs) :
    e.before.due? = some e.instruction ∧
      ∃ ys, ys ++ [.cycle] <+: xs ∧ s.follow ys = .ok e.before := by
  induction xs generalizing s with
  | nil => cases h
  | cons x xs ih =>
    rcases List.mem_append.mp h with hx | hrest
    · obtain ⟨i, hi, rfl⟩ : ∃ i, s.executed? x = some i ∧ ⟨s, i⟩ = e := by
        simpa using hx
      obtain ⟨rfl, hd⟩ := executed?_eq_some_iff.mp hi
      exact ⟨hd, [], List.cons_prefix_cons.mpr ⟨rfl, List.nil_prefix⟩, rfl⟩
    · cases hr : s.respond x with
      | error f => simp [hr] at hrest
      | ok t =>
        rw [hr] at hrest
        obtain ⟨hd, ys, hp, hf⟩ := ih hrest
        exact ⟨hd, x :: ys, List.cons_prefix_cons.mpr ⟨rfl, hp⟩, follow_cons.mpr ⟨t, hr, hf⟩⟩

/-- Where an execution stands in the history of a run, the run can be cut in two: what comes before
the execution is the history of the first part, and the second part begins with its cycle. -/
theorem exists_of_history_eq {before after : List Execution} {e : Execution}
    (h : s.history xs = before ++ e :: after) :
    ∃ ys zs, s.follow ys = .ok e.before ∧ s.history ys = before ∧
      e.before.history (.cycle :: zs) = e :: after := by
  induction xs generalizing s before with
  | nil => simp [history] at h
  | cons x xs ih =>
    cases hx : s.executed? x with
    | none =>
      cases hr : s.respond x with
      | error f => simp [history, hx, hr] at h
      | ok t =>
        have hrest : t.history xs = before ++ e :: after := by simpa [history, hx, hr] using h
        obtain ⟨ys, zs, hys, hbefore, hzs⟩ := ih hrest
        refine ⟨x :: ys, zs, follow_cons.mpr ⟨t, hr, hys⟩, ?_, hzs⟩
        simp [history, hx, hr, hbefore]
    | some i =>
      obtain ⟨rfl, -⟩ := executed?_eq_some_iff.mp hx
      cases before with
      | nil =>
        have hfirst : ⟨s, i⟩ = e := by
          simp only [history, hx] at h
          exact (List.cons.inj h).1
        subst hfirst
        exact ⟨[], xs, rfl, rfl, h⟩
      | cons d before =>
        cases hr : s.respond .cycle with
        | error f => simp [history, hx, hr] at h
        | ok t =>
          have hsplit : ⟨s, i⟩ = d ∧ t.history xs = before ++ e :: after := by
            simpa [history, hx, hr] using h
          obtain ⟨ys, zs, hys, hbefore, hzs⟩ := ih hsplit.2
          refine ⟨.cycle :: ys, zs, follow_cons.mpr ⟨t, hr, hys⟩, ?_, hzs⟩
          simp [history, hx, hr, hbefore, hsplit.1]

theorem exists_next_of_history_eq {before after : List Execution} {d e : Execution}
    (h : s.history xs = before ++ d :: e :: after) :
    ∃ t ys, d.before.step = .ok t ∧ t.follow ys = .ok e.before ∧ t.history ys = [] := by
  obtain ⟨-, zs, -, -, hzs⟩ := exists_of_history_eq h
  have hd : d.before.due? = some d.instruction :=
    (exists_of_mem_history (h ▸ List.mem_append_right before List.mem_cons_self)).1
  have hx : d.before.executed? .cycle = some d.instruction := hd
  cases ht : d.before.respond .cycle with
  | error f => simp [history, hx, ht] at hzs
  | ok t =>
    have hrest : t.history zs = [] ++ e :: after := by simpa [history, hx, ht] using hzs
    obtain ⟨ys, -, hys, hnone, -⟩ := exists_of_history_eq hrest
    exact ⟨t, ys, ht, hys, hnone⟩

theorem untouched_follow (h : s.follow xs = .ok t) (hnone : s.history xs = []) :
    Untouched s t := by
  induction xs generalizing s with
  | nil => exact follow_nil.mp h ▸ Untouched.refl s
  | cons x xs ih =>
    obtain ⟨u, hu, ht⟩ := follow_cons.mp h
    rw [history, hu] at hnone
    obtain ⟨hfirst, hrest⟩ := List.append_eq_nil_iff.mp hnone
    rcases respond_cases hu with ⟨i, hi, -⟩ | ⟨-, hsame⟩
    · simp [hi] at hfirst
    · exact hsame.trans (ih ht hrest)

theorem exists_step_of_mem_history {e : Execution} (h : s.follow xs = .ok t)
    (he : e ∈ s.history xs) :
    e.before.due? = some e.instruction ∧ ∃ u, e.before.step = .ok u := by
  obtain ⟨hd, ys, ⟨zs, rfl⟩, hys⟩ := exists_of_mem_history he
  obtain ⟨v, hv, -⟩ := follow_append.mp h
  obtain ⟨w, hw, hstep⟩ := follow_concat.mp hv
  rw [hys] at hw
  cases hw
  exact ⟨hd, v, hstep⟩

/-! ## Moves -/

/-- The moves of a run; one that ends in a fault is the last. -/
def moves (s : State) : List Stimulus → List Move
  | [] => []
  | x :: xs =>
    ⟨s, x⟩ ::
      match s.respond x with
      | .ok t => t.moves xs
      | .error _ => []

theorem moves_append (h : s.follow xs = .ok u) :
    s.moves (xs ++ ys) = s.moves xs ++ u.moves ys := by
  induction xs generalizing s with
  | nil =>
    cases follow_nil.mp h
    rfl
  | cons x xs ih =>
    obtain ⟨v, hv, hu⟩ := follow_cons.mp h
    simp only [List.cons_append, moves, hv, ih hu]

theorem moves_concat (h : s.follow xs = .ok u) : s.moves (xs ++ [x]) = s.moves xs ++ [⟨u, x⟩] := by
  rw [moves_append h]
  simp only [moves]
  cases u.respond x <;> rfl

end State

end Chip8
