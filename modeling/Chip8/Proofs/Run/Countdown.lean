import Chip8.Proofs.Cycle.Devices
import Chip8.Proofs.Run.Reach
import Mathlib.Data.List.DropRight

/-! # Countdown

Each timer is set by one instruction and counts down with every tick. So along a
run a timer holds the value that it was given last, or had at the start, less the
ticks since then, and nothing else reaches it.
-/

namespace Chip8

namespace Timer

variable (τ : Timer) {start : UInt8} {moves : List Move} {s t : State} {x : Stimulus}
  {xs : List Stimulus}

def given? (m : Move) : Option UInt8 :=
  (m.before.executed? m.stimulus).bind fun i => (τ.source? i).map m.before.reg

/-- The value that the timer was given last, or the one at the start. -/
def lastGiven (start : UInt8) (moves : List Move) : UInt8 :=
  (moves.filterMap τ.given?).getLast?.getD start

/-- The ticks after the last move that gave the timer a value. -/
def ticksSince (moves : List Move) : Nat :=
  (moves.rtakeWhile fun m => (τ.given? m).isNone).countP fun m => decide (m.stimulus = .tick)

theorem lastGiven_concat (m : Move) :
    τ.lastGiven start (moves ++ [m]) = (τ.given? m).getD (τ.lastGiven start moves) := by
  unfold lastGiven
  rw [List.filterMap_append, List.getLast?_append]
  cases h : τ.given? m <;> simp [h]

theorem ticksSince_concat (m : Move) :
    τ.ticksSince (moves ++ [m]) =
      if (τ.given? m).isSome then 0
      else τ.ticksSince moves + if m.stimulus = .tick then 1 else 0 := by
  unfold ticksSince
  cases h : τ.given? m with
  | some v =>
    rw [List.rtakeWhile_concat_neg _ _ _ (by simp [h])]
    rfl
  | none =>
    rw [List.rtakeWhile_concat_pos _ _ _ (by simp [h]), List.countP_append, List.countP_singleton]
    simp

/-! ## One move -/

theorem toNat_countDown (b : UInt8) : (State.countDown b).toNat = b.toNat - 1 := by
  unfold State.countDown
  split
  · rename_i h
    rw [h]
    rfl
  · rename_i h
    have hne : b.toNat ≠ 0 := fun h0 => h (UInt8.toNat_inj.mp h0)
    have hb := b.toNat_lt
    have h1 : (1 : UInt8).toNat = 1 := rfl
    rw [UInt8.toNat_sub]
    omega

/-- A move gives the timer a value, counts it down or leaves it alone. -/
theorem value_respond (h : s.respond x = .ok t) :
    τ.value t = (τ.given? ⟨s, x⟩).getD
      (if x = .tick then State.countDown (τ.value s) else τ.value s) := by
  cases x with
  | cycle =>
    rcases State.respond_cases h with ⟨i, hi, -, rfl⟩ | ⟨hi, -⟩
    · simp only [given?, hi, Option.bind_some]
      exact State.value_after τ i s
    · have hpoll : t = s.poll := by
        rcases State.step_eq_ok_iff.mp h with ⟨-, ht⟩ | ⟨i, hd, -⟩
        · exact ht
        · exact nomatch hd.symm.trans hi
      simp only [given?, hi, hpoll]
      exact (State.agree_poll (.timer τ) s).symm
  | tick =>
    cases h
    exact τ.value_tick s
  | setKey key down =>
    cases h
    cases τ <;> rfl
  | releaseKeys =>
    cases h
    cases τ <;> rfl

/-! ## Runs -/

theorem value_follow (h : s.follow xs = .ok t) :
    (τ.value t).toNat =
      (τ.lastGiven (τ.value s) (s.moves xs)).toNat - τ.ticksSince (s.moves xs) := by
  -- from the right: a value that is given forgets every tick before it
  induction xs using List.reverseRecOn generalizing t with
  | nil =>
    cases State.follow_nil.mp h
    rfl
  | append_singleton xs x ih =>
    obtain ⟨u, hu, ht⟩ := State.follow_concat.mp h
    rw [State.moves_concat hu, lastGiven_concat, ticksSince_concat, τ.value_respond ht]
    cases hg : τ.given? ⟨u, x⟩ with
    | some v => simp
    | none =>
      simp only [Option.getD_none, Option.isSome_none, Bool.false_eq_true, if_false]
      by_cases hx : x = .tick
      · rw [if_pos hx, if_pos hx, toNat_countDown, ih hu, Nat.sub_sub]
      · rw [if_neg hx, if_neg hx, ih hu, Nat.add_zero]

end Timer

namespace State

variable {s t : State} {xs : List Stimulus}

theorem isSounding_iff : t.isSounding = true ↔ 0 < t.sound.toNat := by
  have h0 : t.sound.toNat = 0 ↔ t.sound = 0 := UInt8.toNat_inj (b := 0)
  rw [isSounding, bne_iff_ne, ne_eq, ← h0]
  omega

theorem value_step (τ : Timer) (h : s.step = .ok t)
    (hn : ∀ i, s.due? = some i → τ.source? i = none) : τ.value t = τ.value s := by
  have hg : τ.given? ⟨s, .cycle⟩ = none := by
    cases hd : s.due? with
    | none => simp [Timer.given?, executed?, hd]
    | some i => simp [Timer.given?, executed?, hd, hn i hd]
  have hv := τ.value_respond (x := .cycle) h
  simpa [hg] using hv

theorem step_getDelay {x : Register} (hd : s.due? = some (.getDelay x)) :
    ∃ t, s.step = .ok t ∧ t.reg x = s.delay := by
  refine ⟨_, step_eq_ok_iff.mpr (.inr ⟨_, hd, rfl, rfl⟩), ?_⟩
  exact Vector.getElem_set_self _

/-- The law of the timers. After every run each timer holds the value that it was given last, or had
at the start, less the ticks since; this is what an instruction that reads the delay timer gets and
what the buzzer goes by, and no cycle changes a timer, a poll neither, but by setting it. -/
theorem timers_count_down (h : s.follow xs = .ok t) :
    (∀ τ : Timer, (τ.value t).toNat =
      (τ.lastGiven (τ.value s) (s.moves xs)).toNat - τ.ticksSince (s.moves xs)) ∧
    (∀ x, t.due? = some (.getDelay x) → ∃ u, t.step = .ok u ∧
      (u.reg x).toNat = (Timer.delay.lastGiven s.delay (s.moves xs)).toNat -
        Timer.delay.ticksSince (s.moves xs)) ∧
    (t.isSounding = true ↔
      Timer.sound.ticksSince (s.moves xs) < (Timer.sound.lastGiven s.sound (s.moves xs)).toNat) ∧
    ∀ (τ : Timer) (u v : State), u.step = .ok v →
      (∀ i, u.due? = some i → τ.source? i = none) → τ.value v = τ.value u := by
  have hdelay : t.delay.toNat = _ := Timer.delay.value_follow h
  have hsound : t.sound.toNat = _ := Timer.sound.value_follow h
  refine ⟨fun τ => τ.value_follow h, fun x hd => ?_, ?_, fun τ u v hv hn => value_step τ hv hn⟩
  · obtain ⟨u, hu, hx⟩ := step_getDelay hd
    exact ⟨u, hu, hx ▸ hdelay⟩
  · rw [isSounding_iff, hsound]
    exact Nat.sub_pos_iff_lt

def fadingSound : List Stimulus := [.cycle, .cycle, .tick, .cycle, .cycle, .tick, .tick, .tick]

theorem timers_count_down_fading :
    ∃ s t u, (Machine.ofProgram
        [0x60, 0x05, 0xF0, 0x15, 0x61, 0x03, 0xF1, 0x18, 0xF2, 0x07]).reset = .ok s ∧
      s.follow fadingSound = .ok t ∧ t.step = .ok u ∧ (u.reg 2).toNat = 5 - 4 ∧
      t.isSounding = false ∧ Timer.sound.ticksSince (s.moves fadingSound) = 3 := by
  have hrun : ((Machine.ofProgram
      [0x60, 0x05, 0xF0, 0x15, 0x61, 0x03, 0xF1, 0x18, 0xF2, 0x07]).reset.toOption.any fun s =>
        (s.follow fadingSound).toOption.any fun t => t.due? == some (.getDelay 2) &&
          Timer.delay.lastGiven s.delay (s.moves fadingSound) == 5 &&
          Timer.delay.ticksSince (s.moves fadingSound) == 4 &&
          Timer.sound.lastGiven s.sound (s.moves fadingSound) == 3 &&
          Timer.sound.ticksSince (s.moves fadingSound) == 3) = true := by
    decide +kernel
  obtain ⟨s, hs, hrun⟩ := exists_ok_of_any hrun
  obtain ⟨t, ht, hrun⟩ := exists_ok_of_any hrun
  simp only [Bool.and_eq_true, beq_iff_eq] at hrun
  obtain ⟨⟨⟨⟨hdue, hv⟩, hk⟩, hv'⟩, hk'⟩ := hrun
  obtain ⟨-, hread, hbuzz, -⟩ := timers_count_down ht
  obtain ⟨u, hu, hreg⟩ := hread 2 hdue
  rw [hv, hk] at hreg
  rw [hv', hk'] at hbuzz
  have hsilent : ¬ t.isSounding = true := mt hbuzz.mp (by decide)
  exact ⟨s, t, u, hs, ht, hu, hreg, Bool.eq_false_iff.mpr hsilent, hk'⟩

end State

end Chip8
