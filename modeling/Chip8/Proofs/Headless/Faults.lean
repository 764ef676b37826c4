import Chip8.Proofs.Headless.Outcome

/-! # Faults of headless runs

A fault in the frames of a headless run is its exit status. The summary still
gives the frames that were asked for, also if fewer of them are completed. A
program that is too large is a fault of its own, before the frames, and ends a
run without a status.
-/

namespace Chip8

namespace State

variable {s t u : State} {f : Fault} {xs : List Stimulus} {p n : Nat}

/-- The number of frames that are completed out of `n`, with all their cycles and their tick. -/
def framesDone (p : Nat) : Nat → State → Nat
  | 0, _ => 0
  | n + 1, s =>
    match s.follow (cyclesOnly p ++ [.tick]) with
    | .ok t => t.framesDone p n + 1
    | .error _ => 0

theorem paced_succ (p n : Nat) : paced p (n + 1) = (cyclesOnly p ++ [.tick]) ++ paced p n := by
  simp [paced]

theorem framesDone_of_follow (h : s.follow (paced p n) = .ok t) : s.framesDone p n = n := by
  induction n generalizing s with
  | zero => rfl
  | succ n ih =>
    rw [paced_succ] at h
    obtain ⟨u, hu, ht⟩ := follow_append.mp h
    simp only [framesDone, hu, ih ht]

theorem framesDone_of_fails (hxs : xs ++ [.cycle] <+: paced p n) (hu : s.follow xs = .ok u)
    (hf : u.step = .error f) : s.framesDone p n = xs.count .tick := by
  induction n generalizing s xs with
  | zero => simp [paced] at hxs
  | succ n ih =>
    rcases prefix_paced_cases hxs with ⟨k, hk, rfl⟩ | ⟨ys, rfl, hys⟩
    · have hblock : cyclesOnly k ++ [.cycle] <+: cyclesOnly p ++ [.tick] := by
        refine List.IsPrefix.trans (List.prefix_replicate_iff.mpr ⟨?_, ?_⟩) (List.prefix_append _ _)
        · simpa [cyclesOnly, Nat.succ_le_iff] using hk
        · simp [cyclesOnly, List.replicate_succ']
      have hfault := follow_eq_error_iff.mpr ⟨_, u, hblock, hu, hf⟩
      simp only [framesDone, hfault, count_tick_cyclesOnly]
    · obtain ⟨t, ht, hu⟩ := follow_append.mp hu
      have htick : (cyclesOnly p ++ [Stimulus.tick]).count .tick = 1 := by simp
      rw [List.count_append, htick, framesDone, ht, ← ih hys hu, Nat.add_comm]

theorem framesDone_eq_div (hp : 0 < p) (n : Nat) (s : State) :
    s.framesDone p n = s.succeeding (paced p n) / p := by
  cases hfollow : s.follow (paced p n) with
  | ok t =>
    rw [framesDone_of_follow hfollow, succeeding_of_follow hfollow, count_cycle_paced,
      Nat.mul_div_cancel n hp]
  | error f =>
    obtain ⟨xs, u, hxs, hu, hf⟩ := follow_eq_error_iff.mp hfollow
    rw [framesDone_of_fails hxs hu hf, succeeding_of_fails hxs hu hf,
      (count_tick_of_isPrefix hxs).2]

theorem framesDone_lt_of_error (h : s.follow (paced p n) = .error f) : s.framesDone p n < n := by
  obtain ⟨xs, u, hxs, hu, hf⟩ := follow_eq_error_iff.mp h
  obtain ⟨hlt, hticks⟩ := count_tick_of_isPrefix hxs
  rw [framesDone_of_fails hxs hu hf, hticks]
  exact Nat.div_lt_of_lt_mul (Nat.mul_comm n p ▸ hlt)

end State

namespace Machine

variable {m : Machine} {seed : Int} {f : Fault} {p : Nat}

theorem one_le_of_pace {i : Int} (h : m.pace = .ok (.whole i)) : 1 ≤ i := by
  unfold pace at h
  split at h
  · rename_i rate fps _ _
    obtain ⟨q, -, hq⟩ := exists_of_bind_eq_ok h
    have hmax : (Quantity.whole 1).max q = .whole i := Except.ok.inj hq
    unfold Quantity.max at hmax
    split at hmax
    · subst hmax
      rename_i hlt
      rw [Quantity.lt_whole, decide_eq_true_eq] at hlt
      omega
    · cases hmax
      rfl
  · cases h

theorem frameLength_pos (h : m.frameLength = .ok p) : 0 < p := by
  obtain ⟨q, hpace, h⟩ := exists_of_bind_eq_ok h
  cases q with
  | real x => cases h
  | whole i =>
    have hone := one_le_of_pace hpace
    have hp : i.toNat = p := Except.ok.inj h
    omega

theorem reset_of_oversized (hseed : m.seedValue = .ok seed) (hp : 3584 < m.program.length) :
    m.reset = .error (.fault (.outOfBounds 512 m.program.length)) := by
  simp only [reset, hseed, State.load_eq, hp, if_true, bind, Except.bind]
  rfl

theorem reset_eq_fault_iff (hseed : m.seedValue = .ok seed) :
    m.reset = .error (.fault f) ↔
      3584 < m.program.length ∧ f = .outOfBounds 512 m.program.length := by
  constructor
  · intro h
    by_cases hp : m.program.length ≤ 3584
    · obtain ⟨s, hs⟩ := exists_reset hp hseed
      rw [hs] at h
      cases h
    · have hp := Nat.not_le.mp hp
      rw [reset_of_oversized hseed hp] at h
      cases h
      exact ⟨hp, rfl⟩
  · rintro ⟨hp, rfl⟩
    exact reset_of_oversized hseed hp

end Machine

namespace Log.Report

variable {frames instructions : Nat} {elapsed : Option Quantity} {messages : List Message}
  {text : String}

theorem exists_endText {elapsed : Quantity}
    (h : endText (.number frames) (.number instructions) elapsed = .ok text) :
    ∃ time rate, text = "Ran " ++ toString frames ++ " frames (" ++ toString instructions ++
      " instructions) in " ++ time ++ "s (" ++ rate ++ " instructions/s)" := by
  obtain ⟨rate, -, h⟩ := exists_of_bind_eq_ok h
  obtain ⟨time, -, h⟩ := exists_of_bind_eq_ok h
  exact ⟨time, Text.fixed 0 rate, (Except.ok.inj h).symm⟩

theorem exists_messages_runEnd
    (h : (runEnd (.number frames) (.number instructions)).messages elapsed = .ok messages) :
    ∃ time rate, messages = [⟨"INFO", "Ran " ++ toString frames ++ " frames (" ++
      toString instructions ++ " instructions) in " ++ time ++ "s (" ++ rate ++
      " instructions/s)"⟩] := by
  simp only [Report.messages, bind, Except.bind, pure, Except.pure] at h
  split at h
  · cases h
  · split at h
    · cases h
    · rename_i htext
      obtain ⟨time, rate, rfl⟩ := exists_endText htext
      exact ⟨time, rate, (Except.ok.inj h).symm⟩

end Log.Report

namespace Headless

variable {m : Machine} {c : Config} {imaging : Imaging} {σ : Session} {p frames : Nat} {seed : Int}

/-! ## Completed frames -/

/-- The summary gives the frames that were asked for. They are completed exactly if there is no
fault; up to a fault fewer are, as many as the cycles in the summary make up. -/
theorem frames_of_summary (hprogram : m.program.length ≤ 3584) (hseed : m.seedValue = .ok seed)
    (h : Asks m c p frames) (imaging : Imaging) (σ : Session) :
    ∃ fresh es, m.reset = .ok fresh ∧
      (run m c imaging σ).session =
        { σ.enterAll es with executed := σ.executed + fresh.succeeding (State.paced p frames) } ∧
      es.filterMap Log.Entry.ending? =
        [(.number frames,
          .number (σ.executed + fresh.succeeding (State.paced p frames) : Nat))] ∧
      (∀ (executed : Nat) elapsed messages,
        (Log.Report.runEnd (.number frames) (.number executed)).messages elapsed = .ok messages →
        ∃ time rate, messages = [⟨"INFO", "Ran " ++ toString frames ++ " frames (" ++
          toString executed ++ " instructions) in " ++ time ++ "s (" ++ rate ++
          " instructions/s)"⟩]) ∧
      fresh.succeeding (State.paced p frames) / p = fresh.framesDone p frames ∧
      (fresh.framesDone p frames = frames ↔
        ∃ t, fresh.follow (State.paced p frames) = .ok t) ∧
      ∀ f, fresh.follow (State.paced p frames) = .error f →
        fresh.framesDone p frames < frames := by
  obtain ⟨fresh, hreset⟩ := Machine.exists_reset hprogram hseed
  obtain ⟨es, hsession, hending, -⟩ := h.exists_entries hreset imaging σ
  refine ⟨fresh, es, hreset, hsession, hending,
    fun _ _ _ htold => Log.Report.exists_messages_runEnd htold,
    (State.framesDone_eq_div (Machine.frameLength_pos h.pace) frames fresh).symm,
    ⟨fun hall => ?_, fun ⟨t, ht⟩ => State.framesDone_of_follow ht⟩,
    fun f hf => State.framesDone_lt_of_error hf⟩
  cases hfollow : fresh.follow (State.paced p frames) with
  | ok t => exact ⟨t, rfl⟩
  | error f => exact absurd hall (State.framesDone_lt_of_error hfollow).ne

theorem frames_of_summary_none :
    let m := Machine.ofProgram [0xFF, 0xFF]
    let c : Config := { frames := .ok (.number 2) }
    ∃ fresh, m.reset = .ok fresh ∧ fresh.framesDone 11 2 = 0 ∧
      (run m c graphicsOnly untimed).session.journal.printed.back? =
        some "[    INFO][Chix8] Ran 2 frames (0 instructions) in 0.0s (0 instructions/s)" := by
  intro m c
  have hdone : (m.reset.toOption.any fun s => s.framesDone 11 2 == 0) = true := by
    decide +kernel
  obtain ⟨fresh, hreset, hdone⟩ := exists_ok_of_any hdone
  exact ⟨fresh, hreset, beq_iff_eq.mp hdone, by decide +kernel⟩

theorem frames_of_summary_calls :
    let m := Machine.ofProgram [0x22, 0x00]
    let c : Config := { frames := .ok (.number 3) }
    ∃ fresh es, m.reset = .ok fresh ∧ fresh.framesDone 11 3 = 1 ∧
      (run m c graphicsOnly untimed).session.journal = (untimed.enterAll es).journal ∧
      es.filterMap Log.Entry.ending? = [(.number 3, .number 16)] := by
  intro m c
  have hasks : Asks m c 11 3 := ⟨rfl, rfl, .flag false, rfl, nofun⟩
  have hcount : (m.reset.toOption.any fun s => s.succeeding (State.paced 11 3) == 16) = true := by
    decide +kernel
  obtain ⟨s, hs, hcount⟩ := exists_ok_of_any hcount
  obtain ⟨fresh, es, hreset, hsession, hending, -, hdone, -⟩ :=
    frames_of_summary (by decide) rfl hasks graphicsOnly untimed
  obtain rfl : s = fresh := Except.ok.inj (hs.symm.trans hreset)
  rw [beq_iff_eq.mp hcount] at hending hdone
  exact ⟨s, es, hreset, hdone.symm, by rw [hsession], hending⟩

/-! ## Faults before the frames -/

/-- A fault in the frames is the exit status one, behind the summary. A program that is too large
is a fault at the start instead, which ends the run without a status and without a summary. -/
theorem fault_of_headless (hseed : m.seedValue = .ok seed) (h : Asks m c p frames)
    (imaging : Imaging) (σ : Session) :
    (∀ fresh f, m.reset = .ok fresh → fresh.follow (State.paced p frames) = .error f →
      (run m c imaging σ).exit = .ok 1 ∧ (run m c imaging σ).saved = none ∧
        ∃ es, (run m c imaging σ).session =
            { σ.enterAll es with
              executed := σ.executed + fresh.succeeding (State.paced p frames) } ∧
          es.filterMap Log.Entry.ending? =
            [(.number frames,
              .number (σ.executed + fresh.succeeding (State.paced p frames) : Nat))]) ∧
    (∀ f, m.reset = .error (.fault f) ↔
      3584 < m.program.length ∧ f = .outOfBounds 512 m.program.length) ∧
    ∀ f, m.reset = .error (.fault f) →
      run m c imaging σ = ⟨σ, .error (.fault f), none⟩ := by
  refine ⟨fun fresh f hreset hf => ?_, fun f => Machine.reset_eq_fault_iff hseed,
    fun f hreset => ?_⟩
  · obtain ⟨hexit, hsaved⟩ := h.run_of_fault hreset hf imaging σ
    obtain ⟨es, hsession, hending, -⟩ := h.exists_entries hreset imaging σ
    exact ⟨hexit, hsaved, es, hsession, hending⟩
  · simp only [run, hreset]

theorem fault_of_headless_return :
    let m := Machine.ofProgram [0x00, 0xEE]
    let c : Config := { frames := .ok (.number 1) }
    (run m c graphicsOnly untimed).exit = .ok 1 ∧
      (run m c graphicsOnly untimed).session.executed = 0 := by
  intro m c
  have hasks : Asks m c 11 1 := ⟨rfl, rfl, .flag false, rfl, nofun⟩
  have hfault : (m.reset.toOption.any fun s => s.succeeding (State.paced 11 1) == 0 &&
      errorOf? (s.follow (State.paced 11 1)) == some .stackUnderflow) = true := by
    decide +kernel
  obtain ⟨fresh, hreset, hfault⟩ := exists_ok_of_any hfault
  simp only [Bool.and_eq_true, beq_iff_eq, errorOf?_eq_some_iff] at hfault
  obtain ⟨hcount, hfault⟩ := hfault
  obtain ⟨hexit, -, es, hsession, -⟩ :=
    (fault_of_headless rfl hasks graphicsOnly untimed).1 fresh _ hreset hfault
  refine ⟨hexit, ?_⟩
  rw [hsession, hcount]
  rfl

/-- A program of one byte too many ends a run without a status and without a message. -/
theorem fault_of_headless_oversized :
    let m := Machine.ofProgram (.replicate 3585 0)
    let c : Config := { frames := .ok (.number 0) }
    (run m c graphicsOnly untimed).exit = .error (.fault (.outOfBounds 512 3585)) ∧
      (run m c graphicsOnly untimed).session.journal.printed = #[] := by
  intro m c
  have hlength : m.program.length = 3585 := List.length_replicate
  have hreset := Machine.reset_of_oversized (m := m) rfl (by omega)
  rw [hlength] at hreset
  simp only [run, hreset]
  exact ⟨rfl, rfl⟩

end Headless

end Chip8
