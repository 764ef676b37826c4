import Chip8.Proofs.Window.Frame
import Chip8.Proofs.Window.Moment
import Mathlib.Data.List.Forall2

/-! # The window refines its scheduler

Frame by frame the loop keeps what the scheduler keeps, and it ends with the first
frame that asks it to. A window that can be opened therefore shows the frames of
the scheduler that starts afresh, and those of a machine that runs on its own as
long as nothing interferes.
-/

namespace Chip8.Window

variable {m : Machine} {c : Config} {scheme : Scheme} {fresh : State} {l : Loop} {q : Scheduler}
  {script : List (List Event)} {session : Session} {seed rate fps scale : Int} {measured : UInt64}

/-- A loop that follows a scheduler plays its script like the scheduler and does not fail. -/
theorem Loop.Follows.frames (h : l.Follows q) (m : Machine) (scheme : Scheme) (fresh : State)
    (script : List (List Event)) (hrun : l.running = true) (hs : c.scale = .number scale)
    (hr : c.measured = .real measured) :
    ∃ qs, Scheduler.Plays fresh q (played script) qs ∧
      List.Forall₂ (Frame.Shows m c scheme scale) (l.frames m c scheme fresh script).frames qs ∧
      (l.frames m c scheme fresh script).failure = none ∧
      ∃ last ∈ qs.getLast?,
        (l.frames m c scheme fresh script).session.executed = last.executed := by
  induction script generalizing l q with
  | nil =>
    obtain ⟨l', calls, r, hframe, hruns, hshows, -⟩ := h.frame m scheme fresh [.quit] hs hr
    simp only [Loop.frames, hframe]
    exact ⟨[r], .cons hruns (.nil r), .cons hshows .nil, trivial, r, rfl, hshows.follows.executed⟩
  | cons events script ih =>
    obtain ⟨l', calls, r, hframe, hruns, hshows, hgoes⟩ := h.frame m scheme fresh events hs hr
    rw [hrun] at hgoes
    simp only [Loop.frames, hframe, played]
    by_cases hquit : ∃ e ∈ events, Closes e
    · have hstop : l'.running = false := by
        rw [Bool.eq_false_iff, ne_eq, hgoes]
        rintro ⟨-, hall⟩
        obtain ⟨e, he, hclose⟩ := hquit
        exact hall e he hclose
      simp only [hstop, hquit, Bool.false_eq_true, if_true, if_false]
      exact ⟨[r], .cons hruns (.nil r), .cons hshows .nil, trivial, r, rfl,
        hshows.follows.executed⟩
    · have hgo : l'.running = true := hgoes.mpr ⟨rfl, fun e he hclose => hquit ⟨e, he, hclose⟩⟩
      obtain ⟨qs, hplays, hall, hfail, last, hlast, hexecuted⟩ := ih hshows.follows hgo
      simp only [hgo, hquit, if_true, if_false]
      refine ⟨r :: qs, .cons hruns hplays, .cons hshows hall, hfail, last, ?_, hexecuted⟩
      rw [List.getLast?_cons, Option.mem_def.mp hlast]
      rfl

theorem map_executed_of_shows {frames : List Frame} {qs : List Scheduler}
    (h : List.Forall₂ (Frame.Shows m c scheme scale) frames qs) :
    frames.map (·.loop.session.executed) = qs.map (·.executed) := by
  induction h with
  | nil => rfl
  | cons hshows _ ih => rw [List.map_cons, List.map_cons, hshows.follows.executed, ih]

theorem exists_run_eq {pace : Quantity} (hscheme : Scheme.ofSetting m.scheme = .ok scheme)
    (hreset : m.reset = .ok fresh) (hm : m.pace = .ok pace) (hs : c.scale = .number scale)
    (session : Session) (script : List (List Event)) :
    ∃ setup σ, σ.executed = session.executed ∧
      let shown := (Loop.start c σ fresh pace).frames m c scheme fresh script
      run m c session script = ⟨setup, shown.frames, shown.session, shown.failure⟩ := by
  have hopening : ∃ mode, opening c.scale = .ok mode := by
    rw [hs]
    exact ⟨_, rfl⟩
  have hstart : Starts m c session fresh (.start c (c.opened session) fresh pace) :=
    ⟨hopening, ⟨scheme, hscheme⟩, hreset, pace, hm, rfl⟩
  obtain ⟨setup, hrun⟩ := hstart.exists_run_eq hscheme script
  exact ⟨setup, c.opened session, executed_opened c session, hrun⟩

/-- A window on a machine whose program fits and whose scheme is known shows, frame by frame, what
its scheduler does: it neither fails nor goes on after a frame that asks it to close. Where nothing
interferes, these are the frames of the machine on its own. -/
theorem window_refines_scheduler (hprogram : m.program.length ≤ 3584)
    (hseed : m.seedValue = .ok seed) (hscheme : Scheme.ofSetting m.scheme = .ok scheme)
    (hrate : m.dialect.frequency = .number rate) (hfps : m.fps = .number fps)
    (hscale : c.scale = .number scale) (hmeasured : c.measured = .real measured)
    (session : Session) (script : List (List Event)) :
    ∃ fresh qs, m.reset = .ok fresh ∧
      Scheduler.Plays fresh ⟨fresh, false, (max 1 (rate / fps)).toNat, session.executed⟩
        (played script) qs ∧
      (run m c session script).failure = none ∧
      List.Forall₂ (Frame.Shows m c scheme scale) (run m c session script).frames qs ∧
      (∃ last ∈ qs.getLast?, (run m c session script).session.executed = last.executed) ∧
      ∀ i q, qs[i]? = some q →
        (∀ events ∈ (played script).take (i + 1), ∀ e ∈ events, Scheduler.Neutral e) →
        (m.run (i + 1) session fresh).1.executed = q.executed ∧
          ∀ t, (m.run (i + 1) session fresh).2 = .ok t ↔ q.paused = false ∧ q.state = t := by
  obtain ⟨fresh, hreset⟩ := Machine.exists_reset hprogram hseed
  obtain ⟨setup, σ, hσ, hrun⟩ :=
    exists_run_eq hscheme hreset (Machine.pace_of_numbers hrate hfps) hscale session script
  have hpace : (((max 1 (rate / fps)).toNat : Nat) : Int) = max 1 (rate / fps) := by omega
  have hstart : (Loop.start c σ fresh (.whole (max 1 (rate / fps)))).Follows
      ⟨fresh, false, (max 1 (rate / fps)).toNat, session.executed⟩ :=
    ⟨rfl, rfl, congrArg _ hpace.symm, hσ⟩
  obtain ⟨qs, hplays, hall, hfail, hlast⟩ :=
    hstart.frames m scheme fresh script rfl hscale hmeasured
  rw [hrun]
  refine ⟨fresh, qs, hreset, hplays, hfail, hall, hlast, fun i q hi hn => ?_⟩
  exact hplays.run rfl (Machine.frameLength_of_numbers hrate hfps) rfl hi hn

theorem window_refines_scheduler_reset :
    ∃ fresh qs, (Machine.ofProgram [0x60, 0x05, 0x00, 0xEE]).reset = .ok fresh ∧
      Scheduler.Plays fresh ⟨fresh, false, 11, 0⟩
        [[.press "EQUALS"], [.press "F5"], [.press "MINUS", .press "ESCAPE"]] qs ∧
      qs.map (·.executed) = [1, 2, 2] := by
  let m := Machine.ofProgram [0x60, 0x05, 0x00, 0xEE]
  let c : Config := { measured := .real 0x404E000000000000, font := .fixed 7 18 }
  let session : Session :=
    ⟨{ logger := .make "chix8" "INFO" .absent false false (.whole 0) }, .whole 0, 0⟩
  let script : List (List Event) :=
    [[.press "EQUALS"], [.press "F5"], [.press "MINUS", .press "ESCAPE"], [.press "p"]]
  obtain ⟨fresh, qs, hreset, hplays, -, hall, -⟩ :=
    window_refines_scheduler (m := m) (c := c) (by decide) rfl rfl rfl rfl rfl rfl session script
  have hcount : (run m c session script).frames.map (fun f => f.loop.session.executed) =
      [1, 2, 2] := by
    decide +kernel
  have hscript : played script =
      [[.press "EQUALS"], [.press "F5"], [.press "MINUS", .press "ESCAPE"]] := by
    decide +kernel
  rw [hscript] at hplays
  exact ⟨fresh, qs, hreset, hplays, (map_executed_of_shows hall).symm.trans hcount⟩

end Chip8.Window
