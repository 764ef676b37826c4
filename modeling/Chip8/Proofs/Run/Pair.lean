import Chip8.Proofs.Run.History

/-! # Pairs of runs

Two runs of one schedule are in step as long as each move ends in the same fault
for both or leads both to related states. For this the cycles of two related
states have to fetch the same instruction and to agree on its fault.
-/

namespace Chip8

/-- Two outcomes are the same fault or related states. -/
inductive InStep (R : State → State → Prop) : Except Fault State → Except Fault State → Prop
  | ok {s t : State} : R s t → InStep R (.ok s) (.ok t)
  | error (f : Fault) : InStep R (.error f) (.error f)

namespace InStep

open State

variable {R : State → State → Prop} {s t : State} {xs ys : List Stimulus}

theorem eq_map {g : State → State} {r r' : Except Fault State}
    (h : InStep (fun s t => t = g s) r r') : r' = r.map g := by
  cases h with
  | ok hst => exact congrArg Except.ok hst
  | error f => rfl

theorem imp {R' : State → State → Prop} {r r' : Except Fault State} (h : InStep R r r')
    (hR : ∀ u v, r = .ok u → R u v → R' u v) : InStep R' r r' := by
  cases h with
  | ok hst => exact .ok (hR _ _ rfl hst)
  | error f => exact .error f

theorem exists_ok {r : Except Fault State} (h : InStep R (.ok s) r) : ∃ t, r = .ok t ∧ R s t := by
  cases h with
  | ok hst => exact ⟨_, rfl, hst⟩

theorem eq_error {f : Fault} {r : Except Fault State} (h : InStep R (.error f) r) :
    r = .error f := by
  cases h
  rfl

theorem bind {r r' : Except Fault State} {f g : State → Except Fault State} (h : InStep R r r')
    (hfg : ∀ u v, r = .ok u → R u v → InStep R (f u) (g v)) : InStep R (r.bind f) (r'.bind g) := by
  cases h with
  | ok hst => exact hfg _ _ rfl hst
  | error f => exact .error f

theorem step (hw : t.waiting = s.waiting) (hp : t.peek = s.peek)
    (hpoll : s.waiting ≠ none → R s.poll t.poll)
    (hexec : ∀ i, s.due? = some i → i.fault? t.advance = i.fault? s.advance ∧
      R (i.after s.advance) (i.after t.advance)) :
    InStep R s.step t.step := by
  by_cases hidle : s.waiting = none
  · rw [step_of_idle hidle, step_of_idle (hw.trans hidle), hp]
    cases hi : s.peek with
    | error f => exact .error f
    | ok i =>
      obtain ⟨hf, ha⟩ := hexec i (due?_eq_some_iff.mpr ⟨hidle, hi⟩)
      simp only [Instruction.execute_eq, hf]
      cases i.fault? s.advance with
      | none => exact .ok ha
      | some f => exact .error f
  · rw [step_of_waiting hidle, step_of_waiting (hw ▸ hidle)]
    exact .ok (hpoll hidle)

/-- Moves that keep two states in step keep two runs in step. What has to be known of the executions
for this is known of those of the first run. -/
theorem follow {P : Execution → Prop}
    (hmove : ∀ {s t : State} {x : Stimulus}, R s t → (∀ i, s.executed? x = some i → P ⟨s, i⟩) →
      InStep R (s.respond x) (t.respond x))
    (hst : R s t) (hP : ∀ e ∈ s.history xs, P e) : InStep R (s.follow xs) (t.follow xs) := by
  induction xs generalizing s t with
  | nil => exact .ok hst
  | cons x xs ih =>
    rw [follow_cons_eq, follow_cons_eq]
    have hx : InStep R (s.respond x) (t.respond x) := by
      refine hmove hst fun i hi => hP _ ?_
      simp [history, hi]
    refine hx.bind fun u v hu huv => ih huv fun e he => hP e ?_
    simp only [history, hu, List.mem_append, he, or_true]

end InStep

end Chip8
