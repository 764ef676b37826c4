import Chip8.Machine.Basic
import Chip8.Proofs.Run.History

/-! # Reachable states

A machine whose program fits starts, and its runs reach the states that some
schedule leads to from the start.
-/

namespace Chip8

theorem exists_ok_of_any {ε α : Type} {r : Except ε α} {p : α → Bool}
    (h : r.toOption.any p = true) : ∃ a, r = .ok a ∧ p a = true := by
  cases r with
  | error e => cases h
  | ok a => exact ⟨a, rfl, h⟩

def errorOf? {ε α : Type} : Except ε α → Option ε
  | .error e => some e
  | .ok _ => none

theorem errorOf?_eq_some_iff {ε α : Type} {r : Except ε α} {e : ε} :
    errorOf? r = some e ↔ r = .error e := by
  cases r <;> simp [errorOf?]

namespace Machine

variable {m : Machine} {s t : State} {seed : Int}

/-- The states that runs of a machine reach from its start. -/
def Reaches (m : Machine) (s : State) : Prop :=
  ∃ s₀ schedule, m.reset = .ok s₀ ∧ s₀.follow schedule = .ok s

theorem reset_eq_ok_iff :
    m.reset = .ok s ↔ m.program.length ≤ 3584 ∧ ∃ seed, m.seedValue = .ok seed ∧
      s = { State.initial (Generator.ofSeed seed) m.dialect with
        memory := (Memory.zero.store Font.start Font.data).store 0x200 m.program } := by
  unfold reset
  cases m.seedValue with
  | error e => simp [bind, Except.bind]
  | ok seed =>
    simp only [Except.ok.injEq, exists_eq_left', bind, Except.bind, State.load_eq]
    by_cases hp : m.program.length ≤ 3584
    · rw [if_neg (Nat.not_lt.mpr hp)]
      simp only [hp, true_and]
      exact ⟨fun h => (Except.ok.inj h).symm, fun h => h ▸ rfl⟩
    · simp [hp, Nat.not_le.mp hp, Failure.ofFault]

theorem exists_reset (hp : m.program.length ≤ 3584) (hs : m.seedValue = .ok seed) :
    ∃ s, m.reset = .ok s :=
  ⟨_, reset_eq_ok_iff.mpr ⟨hp, seed, hs, rfl⟩⟩

theorem Reaches.follow {schedule : List Stimulus} (h : m.Reaches s)
    (ht : s.follow schedule = .ok t) : m.Reaches t := by
  obtain ⟨s₀, schedule₀, h₀, hs⟩ := h
  exact ⟨s₀, schedule₀ ++ schedule, h₀, State.follow_append.mpr ⟨s, hs, ht⟩⟩

/-- What holds at the start and is kept by every move holds of every reachable state. -/
theorem Reaches.invariant {P : State → Prop} (hstart : ∀ {s}, m.reset = .ok s → P s)
    (hstep : ∀ {u v : State} {x : Stimulus}, P u → u.respond x = .ok v → P v)
    (h : m.Reaches s) : P s := by
  obtain ⟨s₀, schedule, h₀, hs⟩ := h
  exact State.follow_invariant hstep (hstart h₀) hs

/-- A machine with the usual settings. -/
def ofProgram (program : List UInt8) : Machine where
  path := none
  program
  dialect := {}
  fps := .number 60
  fps_pos := rfl
  seed := .number 0
  rendering := none
  scale := .number 8
  scheme := .text "classic"
  trace := .flag false

end Machine

end Chip8
