import Chip8.Instruction.RoundTrip
import Chip8.Proofs.Cycle.Effect
import Chip8.Proofs.Instruction.Format
import Chip8.Schedule

/-! # Cycles and moves

What a cycle does to a state: it polls the keypad while the machine waits for a
key, and otherwise executes the instruction whose word lies at the program
counter. A move that executes nothing leaves everything alone but the timers,
the keypad and, when a wait ends, the register that it fills.
-/

namespace Chip8.State

variable {s t : State} {i : Instruction} {f : Fault} {x : Stimulus}

/-! ## Fetching -/

theorem peek_eq (s : State) :
    s.peek =
      if 0xFFE < s.pc.toNat then .error (.outOfBounds s.pc.toNat 2)
      else Instruction.decodeWord (s.memory.word s.pc.toNat) := by
  unfold peek
  rw [Memory.readWord_natCast, Memory.size]
  by_cases h : 0xFFE < s.pc.toNat
  · have hr : 4096 < s.pc.toNat + 2 := by omega
    simp only [h, hr, if_true]
    rfl
  · have hr : ¬ 4096 < s.pc.toNat + 2 := by omega
    simp only [h, hr, if_false]
    rfl

theorem decodeWord_eq_ok_iff {w : UInt16} : Instruction.decodeWord w = .ok i ↔ w = i.word := by
  unfold Instruction.decodeWord
  rw [eq_comm (a := w), ← Instruction.ofWord?_eq_some_iff]
  cases Instruction.ofWord? w <;> simp

theorem peek_eq_ok_iff :
    s.peek = .ok i ↔ s.pc.toNat ≤ 0xFFE ∧ s.memory.word s.pc.toNat = i.word := by
  rw [peek_eq]
  split
  · rename_i h
    simp only [reduceCtorEq, false_iff]
    omega
  · rename_i h
    rw [decodeWord_eq_ok_iff]
    exact ⟨fun hw => ⟨by omega, hw⟩, And.right⟩

theorem executeWord_word (s : State) (i : Instruction) :
    s.executeWord i.word.toNat = i.execute s := by
  rw [executeWord, Instruction.decode_word]
  rfl

theorem due?_eq_some_iff : s.due? = some i ↔ s.waiting = none ∧ s.peek = .ok i := by
  unfold due?
  cases s.waiting with
  | some x => simp
  | none => cases s.peek <;> simp [Except.toOption]

theorem toNat_advance_pc (h : s.pc.toNat ≤ 0xFFE) : s.advance.pc.toNat = s.pc.toNat + 2 := by
  rw [advance_pc, UInt16.toNat_add]
  have : (2 : UInt16).toNat = 2 := rfl
  omega

/-! ## Cycles -/

theorem step_of_waiting (h : s.waiting ≠ none) : s.step = .ok s.poll := by
  unfold step
  cases hw : s.waiting with
  | none => exact absurd hw h
  | some x => rfl

theorem step_of_idle (h : s.waiting = none) :
    s.step = match s.peek with
      | .ok i => i.execute s.advance
      | .error f => .error f := by
  unfold step
  rw [h]
  unfold fetch peek
  cases s.memory.readWord s.pc.toNat with
  | error f => rfl
  | ok w =>
    simp only [bind, Except.bind, pure, Except.pure]
    cases Instruction.decodeWord w <;> rfl

theorem step_eq_ok_iff :
    s.step = .ok t ↔ (s.waiting ≠ none ∧ t = s.poll) ∨
      ∃ i, s.due? = some i ∧ i.fault? s.advance = none ∧ t = i.after s.advance := by
  by_cases hw : s.waiting = none
  · rw [step_of_idle hw]
    simp only [hw, due?_eq_some_iff, ne_eq, not_true_eq_false, false_and, false_or, true_and]
    cases s.peek with
    | error f => simp
    | ok i =>
      simp only [Instruction.execute_eq, Except.ok.injEq, exists_eq_left']
      cases i.fault? s.advance with
      | none => simp [eq_comm]
      | some f => simp
  · rw [step_of_waiting hw]
    simp [hw, due?_eq_some_iff, eq_comm (a := t)]

theorem step_eq_error_iff :
    s.step = .error f ↔ s.waiting = none ∧
      (s.peek = .error f ∨ ∃ i, s.peek = .ok i ∧ i.fault? s.advance = some f) := by
  by_cases hw : s.waiting = none
  · rw [step_of_idle hw]
    simp only [hw, true_and]
    cases s.peek with
    | error g => simp
    | ok i =>
      simp only [Instruction.execute_eq, Except.ok.injEq, exists_eq_left', reduceCtorEq, false_or]
      cases i.fault? s.advance with
      | none => simp
      | some g => simp
  · rw [step_of_waiting hw]
    simp [hw]

/-! ## Moves that execute nothing -/

/-- What a move leaves alone if it executes no instruction. -/
structure Untouched (s t : State) : Prop where
  memory : t.memory = s.memory
  index : t.index = s.index
  pc : t.pc = s.pc
  stack : t.stack = s.stack
  screen : t.screen = s.screen
  waiting : t.waiting = s.waiting ∨ t.waiting = none
  generator : t.generator = s.generator
  dialect : t.dialect = s.dialect

theorem Untouched.refl (s : State) : Untouched s s := ⟨rfl, rfl, rfl, rfl, rfl, .inl rfl, rfl, rfl⟩

theorem Untouched.trans {u : State} (h : Untouched s t) (h' : Untouched t u) : Untouched s u where
  memory := h'.memory.trans h.memory
  index := h'.index.trans h.index
  pc := h'.pc.trans h.pc
  stack := h'.stack.trans h.stack
  screen := h'.screen.trans h.screen
  waiting := h'.waiting.elim (fun hsame => hsame ▸ h.waiting) .inr
  generator := h'.generator.trans h.generator
  dialect := h'.dialect.trans h.dialect

theorem untouched_poll (s : State) : Untouched s s.poll := by
  unfold poll
  split
  · exact ⟨rfl, rfl, rfl, rfl, rfl, .inr rfl, rfl, rfl⟩
  · exact ⟨rfl, rfl, rfl, rfl, rfl, .inl rfl, rfl, rfl⟩

/-- The instruction that a move executes, if it executes one. -/
def executed? (s : State) : Stimulus → Option Instruction
  | .cycle => s.due?
  | _ => none

theorem executed?_eq_some_iff : s.executed? x = some i ↔ x = .cycle ∧ s.due? = some i := by
  cases x with
  | cycle => exact ⟨fun h => ⟨rfl, h⟩, And.right⟩
  | _ => exact ⟨nofun, nofun⟩

theorem pc_le_of_executed? (h : s.executed? x = some i) : s.pc.toNat ≤ 0xFFE :=
  (peek_eq_ok_iff.mp (due?_eq_some_iff.mp (executed?_eq_some_iff.mp h).2).2).1

/-- A move executes an instruction or leaves most of the state alone. -/
theorem respond_cases (h : s.respond x = .ok t) :
    (∃ i, s.executed? x = some i ∧ i.fault? s.advance = none ∧ t = i.after s.advance) ∨
      (s.executed? x = none ∧ Untouched s t) := by
  cases x with
  | cycle =>
    rcases step_eq_ok_iff.mp h with ⟨hw, rfl⟩ | hi
    · refine .inr ⟨?_, untouched_poll s⟩
      cases hd : s.executed? .cycle with
      | none => rfl
      | some i => exact absurd (due?_eq_some_iff.mp hd).1 hw
    · exact .inl hi
  | tick =>
    cases h
    exact .inr ⟨rfl, rfl, rfl, rfl, rfl, rfl, .inl rfl, rfl, rfl⟩
  | setKey key down =>
    cases h
    exact .inr ⟨rfl, rfl, rfl, rfl, rfl, rfl, .inl rfl, rfl, rfl⟩
  | releaseKeys =>
    cases h
    exact .inr ⟨rfl, rfl, rfl, rfl, rfl, rfl, .inl rfl, rfl, rfl⟩

end Chip8.State
