import Chip8.Proofs.Cycle.Devices
import Chip8.Proofs.Window.Moment

/-! # Standstill

A cycle that fails stops the loop before it. No fault depends on the keypad, so
until a reset every frame that is not paused fails again at its first cycle, and
events change nothing but the keypad, the pace and the pause.
-/

namespace Chip8.Window

variable {m : Machine} {c : Config} {fresh : State} {session σ : Session}
  {script : List (List Event)} {l l' : Loop} {i j k n : Nat} {events now : List Event}
  {e : Event} {u : State} {f : Fault}

/-- A loop at a standstill: its state is `u` but for the keypad, `n` cycles have succeeded so far,
and a frame that is not paused sets out on a cycle. -/
structure Loop.Stands (u : State) (n : Nat) (l : Loop) : Prop where
  state : ∃ keypad, l.state = { u with keypad }
  executed : l.session.executed = n
  pace : ∃ p : Nat, 0 < p ∧ l.pace = .whole p

/-- The frame of a loop that has taken its events stalls: it ends paused and without a tick, and
unless it was paused before, its first cycle fails. -/
structure Loop.Stalls (m : Machine) (f : Fault) (l l' : Loop) : Prop where
  advance : l.advance m = .ok l'
  paused : l'.paused = true
  tickless : ¬ l.Ticks m
  fails : l.paused = false → l.Attempts m 0 l.session l.state ∧
    (m.step l.session l.state).2 = .error f ∧ l'.fault = some f

namespace Loop

theorem Stands.setKey (h : l.Stands u n) (key : String) (down : Bool) :
    (l.setKey key down).Stands u n := by
  obtain ⟨keypad, hstate⟩ := h.state
  unfold Loop.setKey
  split
  · next pressed _ =>
    refine ⟨⟨keypad.set pressed down, ?_⟩, h.executed, h.pace⟩
    rw [hstate]
    rfl
  · exact h

theorem Stands.handle (h : l.Stands u n) (fresh : State) (he : e ≠ .press "F5") :
    (l.handle fresh e).Stands u n := by
  obtain ⟨keypad, hstate⟩ := h.state
  obtain ⟨p, hp, hpace⟩ := h.pace
  cases e with
  | press key =>
    cases hc : command? key with
    | none =>
      simp only [Loop.handle, hc]
      exact h.setKey key true
    | some command =>
      simp only [Loop.handle, hc]
      cases command with
      | reset => exact absurd (congrArg _ (command?_eq_some_iff.mp hc)) he
      | quit | pause | inspect => exact ⟨h.state, h.executed, h.pace⟩
      | faster =>
        refine ⟨h.state, h.executed, min 100 (p + 3), by omega, ?_⟩
        rw [← faster_natCast, ← hpace]
        rfl
      | slower =>
        refine ⟨h.state, h.executed, max 1 (p - 3), by omega, ?_⟩
        rw [← slower_natCast, ← hpace]
        rfl
  | release key => exact h.setKey key false
  | focusLost => exact ⟨⟨.replicate 16 false, by rw [Loop.handle, hstate]; rfl⟩, h.executed, h.pace⟩
  | quit | other => exact ⟨h.state, h.executed, h.pace⟩

theorem Stands.buzz (h : l.Stands u n) (c : Config) : (l.buzz c).Stands u n :=
  ⟨h.state, h.executed, h.pace⟩

theorem not_ticks_of_fault (hn : Machine.timesOf l.pace = .ok k)
    (hc : m.cycles k l.session l.state = (σ, u, some f)) : ¬ l.Ticks m := by
  rintro ⟨-, p, τ, v, hn', hc'⟩
  obtain rfl := Except.ok.inj (hn.symm.trans hn')
  exact nomatch hc.symm.trans hc'

/-- A frame at a standstill stalls and leaves the loop where it was. -/
theorem Stands.exists_stalls (h : l.Stands u n) (hf : u.step = .error f) :
    ∃ after, l.Stalls m f after ∧ after.Stands u n := by
  obtain ⟨keypad, hstate⟩ := h.state
  obtain ⟨p, hp, hpace⟩ := h.pace
  cases hpaused : l.paused with
  | true =>
    have hrest : l.paused ≠ false := by simp [hpaused]
    exact ⟨l, ⟨(Advances.rest hpaused).advance_eq, hpaused, fun hticks => hrest hticks.1,
      fun hrun => absurd hrun hrest⟩, h⟩
  | false =>
    have halike : State.Alike u l.state := ⟨u.delay, u.sound, keypad, u.generator, hstate⟩
    have hstep : (m.step l.session l.state).2 = .error f := by
      rw [Machine.step_snd]
      exact halike.step_eq_error hf
    have hn : Machine.timesOf l.pace = .ok p := by
      rw [hpace]
      rfl
    have hc := Machine.cycles_of_step_error (m := m) hp rfl hstep
    exact ⟨_, ⟨(Advances.fault hpaused hn hc).advance_eq, rfl, not_ticks_of_fault hn hc,
      fun _ => ⟨⟨hpaused, ⟨p, hn, hp⟩, rfl⟩, hstep, rfl⟩⟩, h.state,
      (Machine.executed_step_of_error hstep).trans h.executed, h.pace⟩

theorem Attempts.exists_stands (hu : l.Attempts m i σ u) (hf : (m.step σ u).2 = .error f) :
    ∃ after, l.advance m = .ok after ∧ after.Stands u σ.executed ∧ after.paused = true ∧
      after.fault = some f ∧ ¬ l.Ticks m := by
  obtain ⟨hpaused, ⟨p, hn, hi⟩, hcycles⟩ := hu
  have hc := Machine.cycles_of_step_error hi hcycles hf
  refine ⟨_, (Advances.fault hpaused hn hc).advance_eq, ⟨⟨u.keypad, rfl⟩,
    Machine.executed_step_of_error hf, p, by omega,
    Machine.eq_whole_of_timesOf hn (by omega)⟩, rfl, rfl, not_ticks_of_fault hn hc⟩

end Loop

/-- Once a step of the window has failed, nothing but a reset makes it go on: the state stays as it
was before that step but for the keypad, no further step counts, and every frame stalls. -/
theorem faults_stick (hl : Moment m c session script k events l)
    (hall : (played script)[k]? = some events) (hu : l.Attempts m i σ u)
    (hf : (m.step σ u).2 = .error f) :
    (∃ after, l.advance m = .ok after ∧ after.Stands u σ.executed ∧ after.paused = true ∧
      after.fault = some f ∧ ¬ l.Ticks m ∧
      ∀ frame, (run m c session script).frames[k]? = some frame → frame.loop = after.buzz c) ∧
    ∀ j now l', k < j → Moment m c session script j now l' →
      .press "F5" ∉ takenSince script (k + 1) j now →
      l'.Stands u σ.executed ∧
      ((played script)[j]? = some now → ∃ after, l'.Stalls m f after ∧ after.Stands u σ.executed ∧
        ∀ frame, (run m c session script).frames[j]? = some frame → frame.loop = after.buzz c) := by
  obtain ⟨after, hadvance, hstands, hpaused, hfault, htick⟩ := hu.exists_stands hf
  have hframe : ∀ frame, (run m c session script).frames[k]? = some frame →
      frame.loop = after.buzz c := fun frame hframe => hl.loop_eq hall hadvance hframe
  refine ⟨⟨after, hadvance, hstands, hpaused, hfault, htick, hframe⟩,
    fun j now l' hkj hl' hreset => ?_⟩
  have hstep : u.step = .error f := by rwa [Machine.step_snd] at hf
  -- the invariant is the standstill alone: how a frame stalls follows from it
  have hstands' : l'.Stands u σ.executed := by
    refine hl.induction_later (P := fun es l => .press "F5" ∉ es → l.Stands u σ.executed) hall
      ?_ ?_ ?_ hkj hl' hreset
    · intro first hfirst _
      obtain rfl := Except.ok.inj (hadvance.symm.trans hfirst.advance_eq)
      exact hstands.buzz c
    · intro fresh es l e hl hes
      rw [List.mem_append, not_or, List.mem_singleton] at hes
      exact (hl hes.1).handle fresh (Ne.symm hes.2)
    · intro es l after' hl hafter hes
      obtain ⟨after, hstalls, hstands⟩ := (hl hes).exists_stalls (m := m) hstep
      obtain rfl := Except.ok.inj (hstalls.advance.symm.trans hafter.advance_eq)
      exact hstands.buzz c
  refine ⟨hstands', fun hall' => ?_⟩
  obtain ⟨after, hstalls, hstands⟩ := hstands'.exists_stalls (m := m) hstep
  exact ⟨after, hstalls, hstands, fun frame hframe => hl'.loop_eq hall' hstalls.advance hframe⟩

theorem faults_stick_through_pauses :
    ∃ m c session script now l σ u l' after, Moment m c session script 0 [] l ∧
      l.Attempts m 1 σ u ∧ (m.step σ u).2 = .error .stackUnderflow ∧
      Moment m c session script 2 now l' ∧ now = [.focusLost, .press "MINUS", .press "p"] ∧
      l'.Stands u 1 ∧ l'.Stalls m .stackUnderflow after ∧ after.Stands u 1 := by
  let m := Machine.ofProgram [0x60, 0x05, 0x00, 0xEE]
  let c : Config := { measured := .real 0x404E000000000000, font := .fixed 7 18 }
  let session : Session :=
    ⟨{ logger := .make "chix8" "INFO" .absent false false (.whole 0) }, .whole 0, 0⟩
  let now : List Event := [.focusLost, .press "MINUS", .press "p"]
  let script : List (List Event) := [[], [.press "q", .press "p"], now]
  have hcheck : (m.reset.toOption.any fun s => (s.follow (State.cyclesOnly 1)).toOption.any
      fun u => errorOf? u.step == some .stackUnderflow) = true := by
    decide +kernel
  obtain ⟨fresh, hreset, hcheck⟩ := exists_ok_of_any hcheck
  obtain ⟨u, hu, hcheck⟩ := exists_ok_of_any hcheck
  have hfault : u.step = .error .stackUnderflow := by
    rwa [beq_iff_eq, errorOf?_eq_some_iff] at hcheck
  have hstart : Starts m c session fresh (.start c session fresh (.whole 11)) :=
    starts_ofProgram rfl hreset
  let first := Loop.start c session fresh (.whole 11)
  obtain ⟨σ, hσ, hcount⟩ := Machine.cycles_of_follow (m := m) first.session hu
  have hl : Moment m c session script 0 [] first :=
    ⟨fresh, first, first, [], hstart, rfl, rfl, List.nil_prefix, rfl⟩
  have hattempts : first.Attempts m 1 σ u := ⟨rfl, ⟨11, rfl, by decide⟩, hσ⟩
  have hf : (m.step σ u).2 = .error .stackUnderflow := (m.step_snd σ u).trans hfault
  have hlength : 2 ≤ (run m c session script).frames.length := by
    decide +kernel
  obtain ⟨l', hl'⟩ := hstart.exists_moment hlength (show (played script)[2]? = some now from rfl)
    List.prefix_rfl
  have hone : σ.executed = 1 := hcount
  obtain ⟨-, hlater⟩ := faults_stick hl rfl hattempts hf
  obtain ⟨hstands, hframe⟩ := hlater 2 now l' (by decide) hl' (by decide)
  obtain ⟨after, hstalls, hafter, -⟩ := hframe rfl
  rw [hone] at hstands hafter
  exact ⟨m, c, session, script, now, first, σ, u, l', after, hl, hattempts, hf, hl', rfl, hstands,
    hstalls, hafter⟩

end Chip8.Window
