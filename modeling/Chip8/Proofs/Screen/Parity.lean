import Chip8.Proofs.Run.Reach
import Chip8.Proofs.Screen.Mask
import Mathlib.Algebra.Ring.Parity
import Mathlib.Data.List.DropRight

/-! # Pixel parity

Only drawing and clearing reach the screen, and drawing flips what it covers. So
along a run a pixel is what it was at the start, or dark after a clear, flipped
once for every drawing since then that covers it.
-/

namespace Chip8

namespace Execution

/-- Whether the execution draws a sprite with a set bit that lands on a pixel. -/
def covers (e : Execution) (r c : Nat) : Bool :=
  match e.instruction with
  | .draw x y height =>
    decide (Sprite.Covers e.before.dialect.clipsSprites ((e.before.reg x).toNat % 64)
      ((e.before.reg y).toNat % 32) (e.before.window height.val) r c)
  | _ => false

/-- An execution covers a pixel that was lit just before it. -/
def Collides (e : Execution) : Prop :=
  ∃ r < 32, ∃ c < 64, e.covers r c = true ∧ e.before.screen.lit r c = true

instance (e : Execution) : Decidable e.Collides :=
  inferInstanceAs (Decidable (∃ r < 32, ∃ c < 64, _ = true ∧ _ = true))

def sinceClear (history : List Execution) : List Execution :=
  history.rtakeWhile fun e => decide (e.instruction ≠ .clearScreen)

/-- What executions leave of a pixel: dark if one of them clears it, and then flipped once for
every later one that covers it. -/
def pixelAfter (lit : Bool) (history : List Execution) (r c : Nat) : Bool :=
  (if ∃ e ∈ history, e.instruction = .clearScreen then false else lit) ^^
    decide (Odd ((sinceClear history).countP fun e => e.covers r c))

variable {lit : Bool} {history : List Execution} {r c : Nat}

theorem pixelAfter_nil : pixelAfter lit [] r c = lit := by
  simp [pixelAfter, sinceClear]

theorem pixelAfter_concat (e : Execution) :
    pixelAfter lit (history ++ [e]) r c =
      if e.instruction = .clearScreen then false
      else pixelAfter lit history r c ^^ e.covers r c := by
  unfold pixelAfter sinceClear
  by_cases he : e.instruction = .clearScreen
  · rw [List.rtakeWhile_concat_neg _ _ _ (by simp [he])]
    simp [he]
  · have hex : (∃ a ∈ history ++ [e], a.instruction = .clearScreen) ↔
        ∃ a ∈ history, a.instruction = .clearScreen := by
      simp [he, or_and_right, exists_or]
    rw [List.rtakeWhile_concat_pos _ _ _ (by simp [he]), List.countP_append, List.countP_singleton,
      if_neg he, if_congr hex rfl rfl, Bool.xor_assoc]
    congr 1
    cases e.covers r c with
    | true => rw [if_pos rfl, Bool.xor_true, ← decide_not, decide_eq_decide, Nat.odd_add_one]
    | false => simp

end Execution

namespace State

variable {s t u : State} {xs : List Stimulus} {r c : Nat}

theorem lit_mask_window (x y : Register) (height : Fin 16) (hr : r < 32) (hc : c < 64) :
    (Sprite.mask s.dialect.clipsSprites (s.reg x).toNat (s.reg y).toNat
      (s.window height.val)).lit r c = Execution.covers ⟨s, .draw x y height⟩ r c := by
  have hlen : (s.window height.val).length ≤ 32 := by
    rw [window, Memory.length_slice]
    omega
  rw [Sprite.lit_mask_eq_covers hr hc hlen]
  rfl

theorem lit_drawn (x y : Register) (height : Fin 16) (hr : r < 32) (hc : c < 64) :
    (s.drawn x y height).1.lit r c =
      (s.screen.lit r c ^^ Execution.covers ⟨s, .draw x y height⟩ r c) := by
  rw [drawn, Screen.draw, Screen.lit_flip, lit_mask_window x y height hr hc]

theorem collision_drawn (x y : Register) (height : Fin 16) :
    (s.drawn x y height).2 = true ↔ Execution.Collides ⟨s, .draw x y height⟩ := by
  rw [drawn, Screen.draw, Screen.meets_eq_true_iff]
  constructor
  · rintro ⟨r, hr, c, hc, hlit, hmask⟩
    exact ⟨r, hr, c, hc, lit_mask_window x y height hr hc ▸ hmask, hlit⟩
  · rintro ⟨r, hr, c, hc, hcovers, hlit⟩
    exact ⟨r, hr, c, hc, hlit, (lit_mask_window x y height hr hc).trans hcovers⟩

theorem lit_screenAfter (s : State) (i : Instruction) (hr : r < 32) (hc : c < 64) :
    (i.screenAfter s.advance).lit r c =
      if i = .clearScreen then false else s.screen.lit r c ^^ Execution.covers ⟨s, i⟩ r c := by
  cases i with
  | clearScreen => exact Screen.lit_blank r c
  | draw x y height => exact lit_drawn x y height hr hc
  | _ => simp [Instruction.screenAfter, Execution.covers]

/-- The pixels of a run are those of its start after its executions. -/
theorem lit_follow (h : s.follow xs = .ok t) (hr : r < 32) (hc : c < 64) :
    t.screen.lit r c = Execution.pixelAfter (s.screen.lit r c) (s.history xs) r c := by
  induction xs using List.reverseRecOn generalizing t with
  | nil =>
    cases follow_nil.mp h
    exact Execution.pixelAfter_nil.symm
  | append_singleton xs x ih =>
    obtain ⟨u, hu, ht⟩ := follow_concat.mp h
    rw [history_concat hu]
    rcases respond_cases ht with ⟨i, hi, -, rfl⟩ | ⟨hi, hsame⟩
    · rw [hi, Option.map_some, Option.toList_some, Execution.pixelAfter_concat, ← ih hu]
      exact lit_screenAfter u i hr hc
    · rw [hi, Option.map_none, Option.toList_none, List.append_nil, ← ih hu, hsame.screen]

theorem reg_of_draw {x y : Register} {height : Fin 16} (hd : s.due? = some (.draw x y height))
    (h : s.step = .ok t) :
    t.reg 15 = if Execution.Collides ⟨s, .draw x y height⟩ then 1 else 0 := by
  rcases step_eq_ok_iff.mp h with ⟨hw, -⟩ | ⟨i, hi, -, rfl⟩
  · exact absurd (due?_eq_some_iff.mp hd).1 hw
  · rw [hd] at hi
    cases hi
    have hreg : ((Instruction.draw x y height).after s.advance).reg 15 =
        (s.drawn x y height).2.toUInt8 := by
      simp only [reg, Instruction.after_registers, Instruction.registersAfter]
      exact Vector.getElem_set_self _
    rw [hreg, ← if_congr (collision_drawn x y height) rfl rfl]
    cases (s.drawn x y height).2 <;> rfl

/-- The law of pixel parity. Every pixel of a run is its value at the start, or dark after a clear,
flipped by every drawing since then that covers it; and every drawing of the run leaves in `VF`
whether a pixel that it covers was lit. -/
theorem screen_parity (h : s.follow xs = .ok t) :
    (∀ r < 32, ∀ c < 64, t.screen.lit r c =
      Execution.pixelAfter (s.screen.lit r c) (s.history xs) r c) ∧
    ∀ e ∈ s.history xs, ∀ x y height, e.instruction = .draw x y height →
      ∃ u, e.before.step = .ok u ∧ u.reg 15 = if e.Collides then 1 else 0 := by
  refine ⟨fun r hr c hc => lit_follow h hr hc, ?_⟩
  rintro ⟨v, i⟩ he x y height rfl
  obtain ⟨hd, u, hu⟩ := exists_step_of_mem_history h he
  exact ⟨u, hu, reg_of_draw hd hu⟩

theorem screen_parity_twice :
    ∃ s t, (Machine.ofProgram [0xA0, 0x50, 0xD0, 0x05, 0xD0, 0x05]).reset = .ok s ∧
      s.follow [.cycle, .cycle, .tick, .cycle] = .ok t ∧ t.screen.lit 0 0 = false ∧
      Execution.pixelAfter (s.screen.lit 0 0) (s.history [.cycle, .cycle, .tick, .cycle]) 0 0 =
        false ∧
      ∃ e ∈ s.history [.cycle, .cycle, .tick, .cycle], e.instruction = .draw 0 0 5 ∧
        ∃ u, e.before.step = .ok u ∧ u.reg 15 = 1 := by
  have hrun : ((Machine.ofProgram [0xA0, 0x50, 0xD0, 0x05, 0xD0, 0x05]).reset.toOption.any fun s =>
      (s.follow [.cycle, .cycle, .tick, .cycle]).toOption.any fun t =>
        t.screen.lit 0 0 == false && (s.history [.cycle, .cycle, .tick, .cycle]).any fun e =>
          e.instruction == .draw 0 0 5 && e.covers 0 0 && e.before.screen.lit 0 0) = true := by
    decide +kernel
  obtain ⟨s, hs, hrun⟩ := exists_ok_of_any hrun
  obtain ⟨t, ht, hrun⟩ := exists_ok_of_any hrun
  simp only [Bool.and_eq_true, beq_iff_eq, List.any_eq_true] at hrun
  obtain ⟨hdark, e, he, ⟨hi, hcovers⟩, hlit⟩ := hrun
  obtain ⟨hpixel, hdraw⟩ := screen_parity ht
  obtain ⟨u, hu, hreg⟩ := hdraw e he 0 0 5 hi
  have hcollides : e.Collides := ⟨0, by decide, 0, by decide, hcovers, hlit⟩
  rw [if_pos hcollides] at hreg
  refine ⟨s, t, hs, ht, hdark, ?_, e, he, hi, u, hu, hreg⟩
  rw [← hpixel 0 (by decide) 0 (by decide), hdark]

end State

end Chip8
