import Chip8.Proofs.Run.Countdown
import Chip8.Proofs.Window.Standstill

/-! # The buzzer of the window

A loop remembers whether its buzzer is on, and calls it once the cycles of a frame
are over if that should change. What it remembers is what the calls so far have
made of the buzzer, so they play and stop by turns.
-/

namespace Chip8.Window

variable {m : Machine} {c : Config} {scheme : Scheme} {fresh : State} {session : Session}
  {script : List (List Event)} {l l' first after : Loop} {j : Nat} {events : List Event}
  {calls : List Call} {frame : Frame} {frames : List Frame} {on : Bool}

def Call.onBuzzer : Call → Bool
  | .play _ | .stop => true
  | _ => false

def buzzerCalls (frames : List Frame) : List Call :=
  (frames.flatMap (·.calls)).filter Call.onBuzzer

/-- The calls on the buzzer that a loop makes after the cycles of a frame, if there is sound. -/
def Loop.buzzes (c : Config) (l : Loop) : List Call := if c.audio.toBool then l.beepCalls else []

theorem buzzerCalls_take_succ (hj : frames[j]? = some frame) :
    buzzerCalls (frames.take (j + 1)) = buzzerCalls (frames.take j) ++ buzzerCalls [frame] := by
  simp [buzzerCalls, List.take_add_one, hj]

/-! ## Turns -/

def turns (n : Nat) : List Call :=
  (List.range n).map fun i => if i % 2 = 0 then .play (-1) else .stop

theorem turns_succ (n : Nat) :
    turns (n + 1) = turns n ++ [if n % 2 = 0 then .play (-1) else .stop] := by
  simp [turns, List.range_succ]

/-- Calls that switch the buzzer on and off, and whether they leave it on. It is off at first. -/
inductive Switches : Bool → List Call → Prop
  | silent : Switches false []
  | play {calls : List Call} (h : Switches false calls) : Switches true (calls ++ [.play (-1)])
  | stop {calls : List Call} (h : Switches true calls) : Switches false (calls ++ [.stop])

theorem Switches.exists_turns (h : Switches on calls) :
    ∃ n, calls = turns n ∧ n % 2 = on.toNat := by
  induction h with
  | silent => exact ⟨0, rfl, rfl⟩
  | play _ ih =>
    obtain ⟨n, rfl, hn⟩ := ih
    refine ⟨n + 1, ?_, ?_⟩
    · rw [turns_succ, hn]
      rfl
    · rw [Nat.add_mod, hn]
      rfl
  | stop _ ih =>
    obtain ⟨n, rfl, hn⟩ := ih
    refine ⟨n + 1, ?_, ?_⟩
    · rw [turns_succ, hn]
      rfl
    · rw [Nat.add_mod, hn]
      rfl

theorem Switches.getLast?_eq_play_iff (h : Switches on calls) :
    calls.getLast? = some (.play (-1)) ↔ on = true := by
  cases h <;> simp

/-! ## Drawing -/

theorem filter_onBuzzer_squares {scale : Setting} {color : Color} {s : Screen}
    (h : squares scale color s = .ok calls) : calls.filter Call.onBuzzer = [] := by
  unfold squares at h
  generalize litPlaces s = places at h
  induction places generalizing calls with
  | nil =>
    cases h
    rfl
  | cons place places ih =>
    rw [List.mapM_cons] at h
    obtain ⟨call, hcall, h⟩ := exists_of_bind_eq_ok h
    obtain ⟨rest, hrest, h⟩ := exists_of_bind_eq_ok h
    obtain ⟨x, -, hcall⟩ := exists_of_bind_eq_ok hcall
    obtain ⟨y, -, hcall⟩ := exists_of_bind_eq_ok hcall
    cases h
    cases hcall
    change rest.filter Call.onBuzzer = []
    exact ih hrest

theorem filter_onBuzzer_paint {scale : Setting} {s : Screen}
    (h : paint scale scheme s = .ok calls) : calls.filter Call.onBuzzer = [] := by
  obtain ⟨places, hplaces, h⟩ := exists_of_bind_eq_ok h
  cases h
  change places.filter Call.onBuzzer = []
  exact filter_onBuzzer_squares hplaces

theorem filter_onBuzzer_overlay (font : Font) (lines : List String) :
    (overlay font lines).filter Call.onBuzzer = [] := by
  rw [List.filter_eq_nil_iff]
  intro call hcall
  rcases List.mem_cons.mp hcall with rfl | hcall
  · exact Bool.false_ne_true
  · obtain ⟨i, hi, rfl⟩ := List.mem_mapIdx.mp hcall
    exact Bool.false_ne_true

theorem onBuzzer_banner {scale : Setting} {text : String} {call : Call}
    (h : banner scale text = .ok call) : call.onBuzzer = false := by
  obtain ⟨height, -, h⟩ := exists_of_bind_eq_ok h
  cases h
  rfl

theorem Loop.drawCalls_eq (c : Config) (scheme : Scheme) (l : Loop) :
    l.drawCalls c scheme =
      paint c.scale scheme l.state.screen >>= fun screen =>
      (if l.inspect then (l.overlayLines c).map (overlay c.font) else pure []) >>= fun lines =>
      (if l.paused then (banner c.scale l.standstill).map ([·]) else pure []) >>= fun line =>
      pure (screen ++ lines ++ line) := by
  unfold drawCalls
  cases l.inspect <;> cases l.paused <;> rfl

theorem Loop.filter_onBuzzer_drawCalls (h : l.drawCalls c scheme = .ok calls) :
    calls.filter Call.onBuzzer = [] := by
  rw [drawCalls_eq] at h
  obtain ⟨screen, hscreen, h⟩ := exists_of_bind_eq_ok h
  obtain ⟨lines, hlines, h⟩ := exists_of_bind_eq_ok h
  obtain ⟨line, hline, h⟩ := exists_of_bind_eq_ok h
  have hlines : lines.filter Call.onBuzzer = [] := by
    split at hlines
    · obtain ⟨texts, -, rfl⟩ := exists_of_map_eq_ok hlines
      exact filter_onBuzzer_overlay _ texts
    · cases hlines
      rfl
  have hline : line.filter Call.onBuzzer = [] := by
    split at hline
    · obtain ⟨call, hcall, rfl⟩ := exists_of_map_eq_ok hline
      simp [onBuzzer_banner hcall]
    · cases hline
      rfl
  cases h
  rw [List.filter_append, List.filter_append, filter_onBuzzer_paint hscreen, hlines, hline]
  rfl

/-! ## Frames -/

namespace Loop

theorem beeping_setKey (l : Loop) (key : String) (down : Bool) :
    (l.setKey key down).beeping = l.beeping := by
  unfold setKey
  split <;> rfl

theorem beeping_handle (fresh : State) (l : Loop) (e : Event) :
    (l.handle fresh e).beeping = l.beeping := by
  cases e with
  | press key =>
    cases hc : command? key with
    | none =>
      simp only [handle, hc]
      exact l.beeping_setKey key true
    | some command =>
      simp only [handle, hc]
      cases command <;> rfl
  | release key => exact l.beeping_setKey key false
  | focusLost | quit | other => rfl

theorem beeping_handleAll (fresh : State) (l : Loop) (events : List Event) :
    (events.foldl (handle fresh) l).beeping = l.beeping := by
  induction events generalizing l with
  | nil => rfl
  | cons e events ih => rw [List.foldl_cons, ih, beeping_handle]

theorem Advances.beeping_eq (h : l.Advances m l') : l'.beeping = l.beeping := by
  cases h <;> rfl

theorem filter_onBuzzer_buzzes (c : Config) (l : Loop) :
    (l.buzzes c).filter Call.onBuzzer = l.buzzes c := by
  unfold buzzes beepCalls
  split
  · split
    · rfl
    · split <;> rfl
  · rfl

theorem exists_buzzes_of_frame (h : l.frame m c scheme fresh events = (l', .ok calls)) :
    ∃ after, (events.foldl (handle fresh) l).Advances m after ∧ l' = after.buzz c ∧
      calls.filter Call.onBuzzer = after.buzzes c := by
  obtain ⟨after, hafter, rfl⟩ := frame_eq_ok h
  refine ⟨after, hafter, rfl, ?_⟩
  simp only [frame, hafter.advance_eq] at h
  obtain ⟨drawn, hdrawn, rfl⟩ := exists_of_map_eq_ok (Prod.mk.inj h).2
  change (after.buzzes c ++ drawn).filter Call.onBuzzer = after.buzzes c
  rw [List.filter_append, filter_onBuzzer_buzzes, filter_onBuzzer_drawCalls hdrawn,
    List.append_nil]

theorem exists_frame_eq (hj : (l.frames m c scheme fresh script).frames[j]? = some frame) :
    ∃ before events,
      (l :: (l.frames m c scheme fresh script).frames.map (·.loop))[j]? = some before ∧
      before.frame m c scheme fresh events = (frame.loop, .ok frame.calls) := by
  induction script generalizing l j with
  | nil =>
    rw [frames] at hj ⊢
    split at hj
    · cases hj
    · next hframe =>
      cases j with
      | zero =>
        cases hj
        exact ⟨l, [.quit], rfl, hframe⟩
      | succ j => cases hj
  | cons events rest ih =>
    rw [frames] at hj ⊢
    split at hj
    · cases hj
    · next l' calls hframe =>
      split at hj
      · next hgo =>
        cases j with
        | zero =>
          cases hj
          exact ⟨l, events, rfl, hframe⟩
        | succ j =>
          obtain ⟨before, events', hbefore, hframe'⟩ := ih hj
          simp only [hgo, if_true]
          exact ⟨before, events', hbefore, hframe'⟩
      · cases j with
        | zero =>
          cases hj
          exact ⟨l, events, rfl, hframe⟩
        | succ j => cases hj

end Loop

/-! ## Runs -/

theorem Switches.buzzes (h : Switches l.beeping calls)
    (hmuted : c.audio.toBool = false → calls = []) :
    Switches (l.buzz c).beeping (calls ++ l.buzzes c) ∧
      (c.audio.toBool = false → calls ++ l.buzzes c = []) := by
  cases hsound : c.audio.toBool with
  | false =>
    obtain rfl := hmuted hsound
    simp only [Loop.buzz, Loop.buzzes, hsound]
    exact ⟨.silent, fun _ => rfl⟩
  | true =>
    refine ⟨?_, nofun⟩
    simp only [Loop.buzz, Loop.buzzes, Loop.beepCalls, hsound, if_true, Bool.true_and]
    cases hwants : l.wantsBeep <;> cases hon : l.beeping <;> rw [hon] at h
    · simpa using h
    · exact h.stop
    · exact h.play
    · simpa using h

theorem exists_starts_of_frame (hj : (run m c session script).frames[j]? = some frame) :
    ∃ fresh first, Starts m c session fresh first := by
  unfold run at hj
  cases hmode : opening c.scale with
  | error failure => simp [hmode] at hj
  | ok mode =>
    simp only [hmode, runOpen] at hj
    cases hscheme : Scheme.ofSetting m.scheme with
    | error failure => simp [hscheme] at hj
    | ok scheme =>
      cases hreset : m.reset with
      | error failure => simp [hscheme, hreset] at hj
      | ok fresh =>
        cases hpace : m.pace with
        | error failure => simp [hscheme, hreset, hpace] at hj
        | ok pace => exact ⟨fresh, _, ⟨mode, hmode⟩, ⟨scheme, hscheme⟩, hreset, pace, hpace, rfl⟩

theorem Starts.exists_buzzes (h : Starts m c session fresh first)
    (hj : (run m c session script).frames[j]? = some frame) :
    ∃ before after, ∃ events : List Event,
      (loops m c session script first)[j]? = some before ∧
      (events.foldl (Loop.handle fresh) before).Advances m after ∧
      frame.loop = after.buzz c ∧ buzzerCalls [frame] = after.buzzes c := by
  obtain ⟨scheme, hscheme⟩ := h.scheme
  obtain ⟨setup, hrun⟩ := h.exists_run_eq hscheme script
  rw [hrun] at hj
  obtain ⟨before, events, hbefore, hframe⟩ := Loop.exists_frame_eq hj
  obtain ⟨after, hafter, hloop, hcalls⟩ := Loop.exists_buzzes_of_frame hframe
  refine ⟨before, after, events, ?_, hafter, hloop, ?_⟩
  · rw [loops, hrun]
    exact hbefore
  · simpa [buzzerCalls] using hcalls

theorem Starts.switches (h : Starts m c session fresh first)
    (hj : (loops m c session script first)[j]? = some l) :
    Switches l.beeping (buzzerCalls ((run m c session script).frames.take j)) ∧
      (c.audio.toBool = false → buzzerCalls ((run m c session script).frames.take j) = []) := by
  induction j generalizing l with
  | zero =>
    obtain ⟨-, -, -, pace, -, hfirst⟩ := h
    obtain rfl := Option.some.inj hj
    rw [hfirst]
    exact ⟨.silent, fun _ => rfl⟩
  | succ j ih =>
    rw [loops, List.getElem?_cons_succ, List.getElem?_map] at hj
    obtain ⟨frame, hframe, rfl⟩ := Option.map_eq_some_iff.mp hj
    obtain ⟨before, after, events, hbefore, hafter, hloop, hcalls⟩ := h.exists_buzzes hframe
    obtain ⟨hswitches, hmuted⟩ := ih hbefore
    have hbeeping : before.beeping = after.beeping := by
      rw [hafter.beeping_eq, Loop.beeping_handleAll]
    rw [hbeeping] at hswitches
    rw [buzzerCalls_take_succ hframe, hcalls, hloop]
    exact hswitches.buzzes hmuted

theorem exists_switches_run (m : Machine) (c : Config) (session : Session)
    (script : List (List Event)) :
    ∃ on, Switches on (buzzerCalls (run m c session script).frames) ∧
      (c.audio.toBool = false → buzzerCalls (run m c session script).frames = []) := by
  cases hframes : (run m c session script).frames with
  | nil => exact ⟨false, .silent, fun _ => rfl⟩
  | cons frame rest =>
    have hzero : (run m c session script).frames[0]? = some frame := by rw [hframes]; rfl
    obtain ⟨fresh, first, hstarts⟩ := exists_starts_of_frame hzero
    have hlast : (run m c session script).frames.length <
        (loops m c session script first).length := by
      simp [loops]
    have hswitches := hstarts.switches (List.getElem?_eq_getElem hlast)
    rw [List.take_length] at hswitches
    rw [← hframes]
    exact ⟨_, hswitches⟩

theorem Moment.switches (h : Moment m c session script j events l)
    (hafter : l.advance m = .ok after) :
    Switches (after.buzz c).beeping
      (buzzerCalls ((run m c session script).frames.take j) ++ after.buzzes c) := by
  obtain ⟨fresh, first, before, -, hstarts, hbefore, -, -, rfl⟩ := h
  obtain ⟨hswitches, hmuted⟩ := hstarts.switches hbefore
  have hbeeping : after.beeping = before.beeping := by
    rw [(Loop.advance_eq_ok_iff.mp hafter).beeping_eq, Loop.beeping_handleAll]
  rw [← hbeeping] at hswitches
  exact (hswitches.buzzes hmuted).1

/-! ## What is heard -/

/-- Calls that play and stop the buzzer by turns and leave it as a loop wants it: the last one plays
if the sound timer runs and the loop is not paused. -/
def Loop.Hears (l : Loop) (calls : List Call) : Prop :=
  (∃ n, calls = turns n) ∧
    (calls.getLast? = some (.play (-1)) ↔ 0 < l.state.sound.toNat ∧ l.paused = false)

theorem Loop.beeping_buzz_iff (hsound : c.audio.toBool = true) (l : Loop) :
    (l.buzz c).beeping = true ↔ 0 < l.state.sound.toNat ∧ l.paused = false := by
  simp [buzz, wantsBeep, hsound, State.isSounding_iff]

theorem Switches.hears (h : Switches (l.buzz c).beeping calls) (hsound : c.audio.toBool = true) :
    l.Hears calls := by
  obtain ⟨n, hn, -⟩ := h.exists_turns
  refine ⟨⟨n, hn⟩, ?_⟩
  rw [h.getLast?_eq_play_iff]
  exact l.beeping_buzz_iff hsound

theorem Loop.length_buzzes_le (c : Config) (l : Loop) : (l.buzzes c).length ≤ 1 := by
  unfold buzzes beepCalls
  split
  · split
    · exact le_rfl
    · split <;> decide
  · decide

theorem hears_of_frame (hsound : c.audio.toBool = true)
    (hj : (run m c session script).frames[j]? = some frame) :
    (buzzerCalls [frame]).length ≤ 1 ∧
      frame.loop.Hears (buzzerCalls ((run m c session script).frames.take (j + 1))) := by
  obtain ⟨fresh, first, hstarts⟩ := exists_starts_of_frame hj
  obtain ⟨before, after, events, -, -, hloop, hcalls⟩ := hstarts.exists_buzzes hj
  have hnext : (loops m c session script first)[j + 1]? = some frame.loop := by
    rw [loops, List.getElem?_cons_succ, List.getElem?_map, hj]
    rfl
  obtain ⟨hswitches, -⟩ := hstarts.switches hnext
  constructor
  · rw [hcalls]
    exact after.length_buzzes_le c
  · rw [hloop] at hswitches ⊢
    exact hswitches.hears hsound

/-- The calls on the buzzer of a run play and stop by turns, at most one in a frame, and leave it on
after the cycles of a frame exactly if the sound timer runs and the loop is not paused, as it is
after a fault. This holds as well of a frame that breaks off while it is drawn. Without sound there
are no calls. -/
theorem buzzer_by_turns (m : Machine) (c : Config) (session : Session)
    (script : List (List Event)) :
    let frames := (run m c session script).frames
    (∀ reason, c.audio = .error reason →
      buzzerCalls frames = [] ∧ ∀ after : Loop, after.buzzes c = []) ∧
    ∀ channels, c.audio = .ok channels → (∃ n, buzzerCalls frames = turns n) ∧
      (∀ j frame, frames[j]? = some frame → (buzzerCalls [frame]).length ≤ 1 ∧
        frame.loop.Hears (buzzerCalls (frames.take (j + 1)))) ∧
      ∀ j events l after, Moment m c session script j events l →
        (played script)[j]? = some events → l.advance m = .ok after →
        (after.buzzes c).length ≤ 1 ∧
        after.Hears (buzzerCalls (frames.take j) ++ after.buzzes c) ∧
        (∀ i σ u f, l.Attempts m i σ u → (m.step σ u).2 = .error f → after.paused = true) ∧
        ∀ frame, frames[j]? = some frame → frame.loop = after.buzz c := by
  intro frames
  obtain ⟨on, hswitches, hmuted⟩ := exists_switches_run m c session script
  constructor
  · intro reason haudio
    have hsilent : c.audio.toBool = false := by rw [haudio]; rfl
    refine ⟨hmuted hsilent, fun after => ?_⟩
    rw [Loop.buzzes, hsilent]
    rfl
  · intro channels haudio
    have hsound : c.audio.toBool = true := by rw [haudio]; rfl
    obtain ⟨n, hn, -⟩ := hswitches.exists_turns
    refine ⟨⟨n, hn⟩, fun j frame hj => hears_of_frame hsound hj, ?_⟩
    intro j events l after hl hall hafter
    refine ⟨after.length_buzzes_le c, (hl.switches hafter).hears hsound, ?_, fun frame hj =>
      hl.loop_eq hall hafter hj⟩
    intro i σ u f hu hf
    obtain ⟨stopped, hstopped, -, hpaused, -⟩ := hu.exists_stands hf
    obtain rfl := Except.ok.inj (hafter.symm.trans hstopped)
    exact hpaused

theorem buzzer_by_turns_fault :
    ∃ m c session script l after, c.audio = .ok 2 ∧ Moment m c session script 1 [.press "1"] l ∧
      l.advance m = .ok after ∧ 0 < after.state.sound.toNat ∧ after.paused = true ∧
      let last := fun j => (buzzerCalls ((run m c session script).frames.take j)).getLast?
      last 1 = some (.play (-1)) ∧ last 2 ≠ some (.play (-1)) ∧ last 3 = some (.play (-1)) := by
  let m := Machine.ofProgram
    [0x60, 0x05, 0xF0, 0x18, 0x61, 0x01, 0xE1, 0xA1, 0x00, 0xEE, 0x12, 0x06]
  let c : Config := { measured := .real 0x404E000000000000, font := .fixed 7 18 }
  let session : Session :=
    ⟨{ logger := .make "chix8" "INFO" .absent false false (.whole 0) }, .whole 0, 0⟩
  let script : List (List Event) := [[], [.press "1"], [.press "F5", .quit]]
  let frames := (run m c session script).frames
  have hrun : (frames.map (fun frame => (frame.loop.state.sound.toNat, frame.loop.paused)) ==
      [(4, false), (4, true), (4, false)] &&
    m.reset.toOption.any fun s => frames[0]?.any fun frame =>
      let l := frame.loop.handle s (.press "1")
      !l.paused && l.pace == .whole 11 &&
        (l.state.follow (State.cyclesOnly 1)).toOption.any fun u =>
          errorOf? u.step == some .stackUnderflow) = true := by
    decide +kernel
  obtain ⟨hstates, hcheck⟩ := Bool.and_eq_true_iff.mp hrun
  rw [beq_iff_eq] at hstates
  obtain ⟨fresh, hreset, hcheck⟩ := exists_ok_of_any hcheck
  obtain ⟨before, hbefore, hcheck⟩ := (Option.any_eq_true _ _).mp hcheck
  simp only [Bool.and_eq_true, Bool.not_eq_true', beq_iff_eq] at hcheck
  obtain ⟨⟨hpaused, hpace⟩, hcheck⟩ := hcheck
  obtain ⟨u, hu, hcheck⟩ := exists_ok_of_any hcheck
  let l := before.loop.handle fresh (.press "1")
  have hstart : Starts m c session fresh (.start c session fresh (.whole 11)) :=
    starts_ofProgram rfl hreset
  have hmoment : Moment m c session script 1 [.press "1"] l := by
    refine ⟨fresh, _, before.loop, [.press "1"], hstart, ?_, rfl, List.prefix_rfl, rfl⟩
    rw [loops, List.getElem?_cons_succ, List.getElem?_map, hbefore]
    rfl
  obtain ⟨σ, hσ, -⟩ := Machine.cycles_of_follow (m := m) l.session hu
  have hattempts : l.Attempts m 1 σ u := ⟨hpaused, ⟨11, by rw [hpace]; rfl, by decide⟩, hσ⟩
  have hfault : (m.step σ u).2 = .error .stackUnderflow := by
    rwa [Machine.step_snd, ← errorOf?_eq_some_iff, ← beq_iff_eq]
  obtain ⟨after, hafter, -⟩ := hattempts.exists_stands hfault
  obtain ⟨-, hsound⟩ := buzzer_by_turns m c session script
  obtain ⟨-, hframes, hmoments⟩ := hsound 2 rfl
  obtain ⟨-, -, hstops, hloop⟩ := hmoments 1 _ l after hmoment rfl hafter
  have hheard : ∀ j : Nat, ∀ sound paused,
      (frames.map fun frame => (frame.loop.state.sound.toNat, frame.loop.paused))[j]? =
        some (sound, paused) →
      ∃ frame, frames[j]? = some frame ∧ frame.loop.state.sound.toNat = sound ∧
        ((buzzerCalls (frames.take (j + 1))).getLast? = some (.play (-1)) ↔
          0 < sound ∧ paused = false) := by
    intro j sound paused hj
    rw [List.getElem?_map] at hj
    obtain ⟨frame, hframe, heq⟩ := Option.map_eq_some_iff.mp hj
    obtain ⟨rfl, rfl⟩ := Prod.mk.inj heq
    exact ⟨frame, hframe, rfl, (hframes j frame hframe).2.2⟩
  rw [hstates] at hheard
  obtain ⟨-, -, -, hplays⟩ := hheard 0 4 false rfl
  obtain ⟨frame, hframe, hrings, hstopped⟩ := hheard 1 4 true rfl
  obtain ⟨-, -, -, hagain⟩ := hheard 2 4 false rfl
  rw [hloop frame hframe] at hrings
  refine ⟨m, c, session, script, l, after, rfl, hmoment, hafter, ?_, ?_, ?_, ?_, ?_⟩
  · exact hrings ▸ Nat.zero_lt_succ 3
  · exact hstops 1 σ u .stackUnderflow hattempts hfault
  · exact hplays.mpr (by decide)
  · exact fun h => Bool.noConfusion (hstopped.mp h).2
  · exact hagain.mpr (by decide)

end Chip8.Window
