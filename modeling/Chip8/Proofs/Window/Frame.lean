import Chip8.Proofs.Window.Scheduler

/-! # Frames of the window

A frame takes its events, advances the loop and draws it. An advance rests, runs
all the cycles of a frame and ticks, or stops at a fault. With numbers for its
settings none of this fails: the loop goes on following the scheduler, and every
lit pixel of its state is drawn.
-/

namespace Chip8.Window

variable {m : Machine} {c : Config} {scheme : Scheme} {fresh : State} {l l' before : Loop}
  {q : Scheduler} {events : List Event} {script : List (List Event)} {j : Nat} {scale : Int}
  {rate : UInt64}

namespace Loop

/-! ## Advances -/

/-- The frame of a loop that has taken its events sets out on a cycle from `u`, after `i` that have
succeeded and left `σ`. -/
structure Attempts (m : Machine) (l : Loop) (i : Nat) (σ : Session) (u : State) : Prop where
  unpaused : l.paused = false
  within : ∃ n, Machine.timesOf l.pace = .ok n ∧ i < n
  cycles : m.cycles i l.session l.state = (σ, u, none)

/-- The frame of a loop that has taken its events runs all its cycles and ticks. -/
def Ticks (m : Machine) (l : Loop) : Prop :=
  l.paused = false ∧ ∃ n σ u, Machine.timesOf l.pace = .ok n ∧
    m.cycles n l.session l.state = (σ, u, none)

/-- All that a loop can make of a frame whose events it has taken. -/
inductive Advances (m : Machine) (l : Loop) : Loop → Prop
  | rest (hp : l.paused = true) : Advances m l l
  | full {n : Nat} {σ : Session} {u : State} (hp : l.paused = false)
      (hn : Machine.timesOf l.pace = .ok n) (hc : m.cycles n l.session l.state = (σ, u, none)) :
      Advances m l { l with
        session := σ, state := u.tick,
        latest := if σ.executed = l.session.executed then l.latest else some u }
  | fault {n : Nat} {σ : Session} {u : State} {f : Fault} (hp : l.paused = false)
      (hn : Machine.timesOf l.pace = .ok n) (hc : m.cycles n l.session l.state = (σ, u, some f)) :
      Advances m l { l with
        session := σ, state := u,
        latest := if σ.executed = l.session.executed then l.latest else some u,
        fault := some f, paused := true }

theorem Advances.advance_eq (h : l.Advances m l') : l.advance m = .ok l' := by
  cases h with
  | rest hp => simp [advance, hp]
  | full hp hn hc => simp [advance, hp, hn, hc, bind, Except.bind, pure, Except.pure]
  | fault hp hn hc => simp [advance, hp, hn, hc, bind, Except.bind, pure, Except.pure]

theorem advance_eq_ok_iff : l.advance m = .ok l' ↔ l.Advances m l' := by
  refine ⟨fun h => ?_, Advances.advance_eq⟩
  cases hp : l.paused with
  | true =>
    obtain rfl := Except.ok.inj ((Advances.rest (m := m) hp).advance_eq.symm.trans h)
    exact .rest hp
  | false =>
    cases hn : Machine.timesOf l.pace with
    | error failure => simp [advance, hp, hn, bind, Except.bind] at h
    | ok n =>
      rcases hc : m.cycles n l.session l.state with ⟨σ, u, _ | f⟩
      · obtain rfl := Except.ok.inj ((Advances.full hp hn hc).advance_eq.symm.trans h)
        exact .full hp hn hc
      · obtain rfl := Except.ok.inj ((Advances.fault hp hn hc).advance_eq.symm.trans h)
        exact .fault hp hn hc

theorem Advances.running_eq (h : l.Advances m l') : l'.running = l.running := by
  cases h <;> rfl

/-! ## Frame after frame -/

def buzz (c : Config) (l : Loop) : Loop := { l with beeping := c.audio.toBool && l.wantsBeep }

theorem frame_eq_ok {calls : List Call}
    (h : l.frame m c scheme fresh events = (l', .ok calls)) :
    ∃ after, (events.foldl (handle fresh) l).Advances m after ∧ l' = after.buzz c := by
  unfold frame at h
  simp only at h
  split at h
  · exact nomatch (Prod.mk.inj h).2
  · next after hafter => exact ⟨after, advance_eq_ok_iff.mp hafter, (Prod.mk.inj h).1.symm⟩

/-- Frames with their events, and what each leaves of the loop. They can stop at any time. -/
inductive Plays (m : Machine) (c : Config) (fresh : State) :
    Loop → List (List Event) → List Loop → Prop
  | stop (l : Loop) (script : List (List Event)) : Plays m c fresh l script []
  | frame {l after : Loop} {events : List Event} {script : List (List Event)} {ls : List Loop}
      (hafter : (events.foldl (handle fresh) l).Advances m after)
      (hrest : Plays m c fresh (after.buzz c) script ls) :
      Plays m c fresh l (events :: script) (after.buzz c :: ls)

theorem plays_frames (hrun : l.running = true) (scheme : Scheme) (script : List (List Event)) :
    Plays m c fresh l (played script)
      ((l.frames m c scheme fresh script).frames.map (·.loop)) := by
  induction script generalizing l with
  | nil =>
    rw [frames]
    split
    · exact .stop l _
    · next hframe =>
      obtain ⟨after, hafter, rfl⟩ := frame_eq_ok hframe
      exact .frame hafter (.stop _ [])
  | cons events rest ih =>
    rw [frames]
    split
    · exact .stop l _
    · next hframe =>
      obtain ⟨after, hafter, rfl⟩ := frame_eq_ok hframe
      rw [played]
      have hgoes := running_handleAll fresh l events
      rw [← hafter.running_eq, hrun] at hgoes
      by_cases hquit : ∃ e ∈ events, Closes e
      · have hstop : (after.buzz c).running = false := by
          rw [Bool.eq_false_iff, ne_eq]
          intro hgo
          obtain ⟨e, he, hclose⟩ := hquit
          exact (hgoes.mp hgo).2 e he hclose
        simp only [hstop, hquit, Bool.false_eq_true, if_true, if_false]
        exact .frame hafter (.stop _ [])
      · have hgo : (after.buzz c).running = true :=
          hgoes.mpr ⟨rfl, fun e he hclose => hquit ⟨e, he, hclose⟩⟩
        simp only [hgo, hquit, if_true, if_false]
        exact .frame hafter (ih hgo)

theorem Plays.exists_advances {ls : List Loop} (h : Plays m c fresh l script ls)
    (hj : (l :: ls)[j]? = some before) (hj' : ls[j]? = some l') :
    ∃ events after, script[j]? = some events ∧
      (events.foldl (handle fresh) before).Advances m after ∧ l' = after.buzz c := by
  induction h generalizing j with
  | stop => cases hj'
  | frame hafter hrest ih =>
    cases j with
    | zero =>
      cases hj
      exact ⟨_, _, rfl, hafter, (Option.some.inj hj').symm⟩
    | succ j => exact ih hj hj'

end Loop

/-! ## Drawing -/

def canvas (scale : Int) (scheme : Scheme) (s : Screen) : List Call :=
  .fill scheme.off :: (litPlaces s).map fun (r, c) =>
    .rect scheme.on (.number (c * scale)) (.number (r * scale)) (.number scale) (.number scale)

theorem paint_number (scale : Int) (scheme : Scheme) (s : Screen) :
    paint (.number scale) scheme s = .ok (canvas scale scheme s) := by
  simp only [paint, squares_number]
  rfl

theorem banner_number (scale : Int) (text : String) :
    banner (.number scale) text =
      .ok (.text text 24 ⟨255, 255, 0⟩ (.number 10) (.number (32 * scale + -30))) := by
  simp only [banner, Setting.product_number]
  rfl

/-- What is seen of a frame after which the loop keeps what a scheduler keeps: its state is drawn
on its background, and whatever else there is to draw comes after. -/
structure Frame.Shows (m : Machine) (c : Config) (scheme : Scheme) (scale : Int) (f : Frame)
    (q : Scheduler) : Prop where
  follows : f.loop.Follows q
  drawn : ∃ beeps rest,
    f.calls = .clock m.fps :: beeps ++ (canvas scale scheme q.state.screen ++ rest) ∧
      f.loop.drawCalls c scheme = .ok (canvas scale scheme q.state.screen ++ rest)

namespace Loop

theorem exists_overlayLines (l : Loop) (hr : c.measured = .real rate) :
    ∃ lines, l.overlayLines c = .ok lines := by
  unfold overlayLines
  rw [hr]
  exact ⟨_, rfl⟩

theorem exists_drawCalls (scheme : Scheme) (l : Loop) (hs : c.scale = .number scale)
    (hr : c.measured = .real rate) :
    ∃ rest, l.drawCalls c scheme = .ok (canvas scale scheme l.state.screen ++ rest) := by
  obtain ⟨lines, hlines⟩ := l.exists_overlayLines hr
  unfold drawCalls
  rw [hs, paint_number, banner_number, hlines]
  cases l.inspect <;> cases l.paused
  all_goals exact ⟨_, congrArg Except.ok (List.append_assoc ..)⟩

/-! ## Frames of the scheduler -/

theorem Follows.advance (m : Machine) (h : l.Follows q) :
    ∃ l' r, l.advance m = .ok l' ∧ q.Runs r ∧ l'.Follows r ∧ l'.running = l.running := by
  have hpace : Machine.timesOf l.pace = .ok q.pace := by
    rw [h.pace]
    rfl
  cases hp : q.paused with
  | true => exact ⟨l, q, (Advances.rest (h.paused.trans hp)).advance_eq, .rest hp, h, rfl⟩
  | false =>
    have hl : l.paused = false := h.paused.trans hp
    rcases q.state.succeeds_or_fails q.pace with ⟨t, ht⟩ | ⟨k, u, f, hf⟩
    · obtain ⟨σ, hσ, hsum⟩ := Machine.cycles_of_follow (m := m) l.session ht
      rw [← h.state] at hσ
      exact ⟨_, _, (Advances.full hl hpace hσ).advance_eq, .full hp ht,
        ⟨rfl, h.paused, h.pace, hsum.trans (h.executed ▸ rfl)⟩, rfl⟩
    · obtain ⟨σ, hσ, hsum⟩ := Machine.cycles_of_fails (m := m) l.session hf
      rw [← h.state] at hσ
      exact ⟨_, _, (Advances.fault hl hpace hσ).advance_eq, .fault hp hf,
        ⟨rfl, rfl, h.pace, hsum.trans (h.executed ▸ rfl)⟩, rfl⟩

theorem Follows.frame (h : l.Follows q) (m : Machine) (scheme : Scheme) (fresh : State)
    (events : List Event) (hs : c.scale = .number scale) (hr : c.measured = .real rate) :
    ∃ l' calls r, l.frame m c scheme fresh events = (l', .ok calls) ∧
      (events.foldl (Scheduler.take fresh) q).Runs r ∧ Frame.Shows m c scheme scale ⟨l', calls⟩ r ∧
      (l'.running = true ↔ l.running = true ∧ ∀ e ∈ events, ¬ Closes e) := by
  obtain ⟨l₁, r, hadvance, hruns, hr₁, hrunning⟩ := (h.handleAll fresh events).advance m
  let l₂ := l₁.buzz c
  have hr₂ : l₂.Follows r := ⟨hr₁.state, hr₁.paused, hr₁.pace, hr₁.executed⟩
  obtain ⟨rest, hdraw⟩ := l₂.exists_drawCalls scheme hs hr
  rw [hr₂.state] at hdraw
  have hframe : l.frame m c scheme fresh events = (l₂, (l₂.drawCalls c scheme).map fun calls =>
      .clock m.fps :: (if c.audio.toBool then l₁.beepCalls else []) ++ calls) := by
    simp only [Loop.frame, hadvance]
    rfl
  rw [hdraw] at hframe
  refine ⟨l₂, _, r, hframe, hruns, ⟨hr₂, _, rest, rfl, hdraw⟩, ?_⟩
  rw [← running_handleAll fresh l events, ← hrunning]
  exact Iff.rfl

end Loop

end Chip8.Window
