import Chip8.Proofs.Run.Reach
import Chip8.Proofs.Window.Frame
import Mathlib.Data.Nat.Init

/-! # Moments of a window's run

In each frame the loop takes events one after the other, runs the cycles of the
frame unless it is paused, and sets its buzzer. What events and cycles keep holds
at every moment of the run.
-/

namespace Chip8.Window

variable {m : Machine} {c : Config} {scheme : Scheme} {fresh : State} {session : Session}
  {script : List (List Event)} {l l' first before after : Loop} {j k : Nat}
  {events now : List Event}

/-! ## Runs -/

def Config.opened (c : Config) (session : Session) : Session :=
  match c.audio with
  | .ok _ => session
  | .error reason => session.tell "WARNING" ("Audio unavailable, running muted: " ++ reason)

/-- A window opens and starts its loop as `first`; a reset takes the loop back to `fresh`. -/
structure Starts (m : Machine) (c : Config) (session : Session) (fresh : State) (first : Loop) :
    Prop where
  opening : ∃ mode, opening c.scale = .ok mode
  scheme : ∃ scheme, Scheme.ofSetting m.scheme = .ok scheme
  reset : m.reset = .ok fresh
  loop : ∃ pace, m.pace = .ok pace ∧ first = .start c (c.opened session) fresh pace

/-- The loops of a run between its frames, from the start on. -/
def loops (m : Machine) (c : Config) (session : Session) (script : List (List Event))
    (first : Loop) : List Loop :=
  first :: (run m c session script).frames.map (·.loop)

theorem exists_loop_of_le (hkj : k ≤ j) (hj : (loops m c session script first)[j]? = some l) :
    ∃ before, (loops m c session script first)[k]? = some before := by
  have hlt := (List.getElem?_eq_some_iff.mp hj).1
  exact ⟨_, List.getElem?_eq_getElem (Nat.lt_of_le_of_lt hkj hlt)⟩

@[simp] theorem executed_opened (c : Config) (session : Session) :
    (c.opened session).executed = session.executed := by
  unfold Config.opened
  cases c.audio <;> rfl

theorem Starts.exists_run_eq (h : Starts m c session fresh first)
    (hscheme : Scheme.ofSetting m.scheme = .ok scheme) (script : List (List Event)) :
    ∃ setup, let shown := first.frames m c scheme fresh script
      run m c session script = ⟨setup, shown.frames, shown.session, shown.failure⟩ := by
  obtain ⟨⟨mode, hmode⟩, -, hreset, pace, hpace, rfl⟩ := h
  unfold run
  rw [hmode]
  simp only
  unfold runOpen Config.opened
  rw [hscheme, hreset, hpace]
  cases c.audio with
  | error reason => exact ⟨_, rfl⟩
  | ok channels => exact ⟨_, rfl⟩

theorem starts_ofProgram {program : List UInt8} {scale : Int} (hscale : c.scale = .number scale)
    (hreset : (Machine.ofProgram program).reset = .ok fresh) :
    Starts (.ofProgram program) c session fresh
      (.start c (c.opened session) fresh (.whole 11)) := by
  have hrate : (Machine.ofProgram program).dialect.frequency = .number 700 := rfl
  have hfps : (Machine.ofProgram program).fps = .number 60 := rfl
  refine ⟨?_, ⟨_, rfl⟩, hreset, _, Machine.pace_of_numbers hrate hfps, rfl⟩
  rw [hscale]
  exact ⟨_, rfl⟩

theorem Starts.running (h : Starts m c session fresh first) : first.running = true := by
  obtain ⟨-, -, -, pace, -, rfl⟩ := h
  rfl

theorem Starts.exists_advances (h : Starts m c session fresh first)
    (hj : (loops m c session script first)[j]? = some before)
    (hj' : (loops m c session script first)[j + 1]? = some l') :
    ∃ events after, (played script)[j]? = some events ∧
      (events.foldl (Loop.handle fresh) before).Advances m after ∧ l' = after.buzz c := by
  obtain ⟨scheme, hscheme⟩ := h.scheme
  obtain ⟨setup, hrun⟩ := h.exists_run_eq hscheme script
  have hplays : Loop.Plays m c fresh first (played script)
      ((run m c session script).frames.map (·.loop)) := by
    rw [hrun]
    exact Loop.plays_frames h.running scheme script
  exact hplays.exists_advances hj hj'

theorem Starts.unique {fresh' : State} {first' : Loop} (h : Starts m c session fresh first)
    (h' : Starts m c session fresh' first') : fresh = fresh' ∧ first = first' := by
  obtain ⟨-, -, hreset, pace, hpace, rfl⟩ := h
  obtain ⟨-, -, hreset', pace', hpace', rfl⟩ := h'
  obtain rfl := Except.ok.inj (hreset.symm.trans hreset')
  obtain rfl := Except.ok.inj (hpace.symm.trans hpace')
  exact ⟨rfl, rfl⟩

/-- In the middle of frame `j` of a run, with its events `now` taken so far, the loop is `l`. -/
def Moment (m : Machine) (c : Config) (session : Session) (script : List (List Event)) (j : Nat)
    (now : List Event) (l : Loop) : Prop :=
  ∃ fresh first before events, Starts m c session fresh first ∧
    (loops m c session script first)[j]? = some before ∧ (played script)[j]? = some events ∧
    now <+: events ∧ l = now.foldl (Loop.handle fresh) before

theorem Starts.exists_moment (hs : Starts m c session fresh first)
    (hj : j ≤ (run m c session script).frames.length)
    (hevents : (played script)[j]? = some events) (hnow : now <+: events) :
    ∃ l, Moment m c session script j now l := by
  have hlt : j < (loops m c session script first).length := by
    simpa [loops, Nat.lt_succ_iff] using hj
  exact ⟨_, fresh, first, _, events, hs, List.getElem?_eq_getElem hlt, hevents, hnow, rfl⟩

theorem Moment.loop_eq {frame : Frame} (h : Moment m c session script j now l)
    (hall : (played script)[j]? = some now) (hadvance : l.advance m = .ok after)
    (hj : (run m c session script).frames[j]? = some frame) : frame.loop = after.buzz c := by
  obtain ⟨fresh, first, before, events, hs, hbefore, -, -, rfl⟩ := h
  have hnext : (loops m c session script first)[j + 1]? = some frame.loop := by
    rw [loops, List.getElem?_cons_succ, List.getElem?_map, hj]
    rfl
  obtain ⟨events', after', hplayed, hafter, heq⟩ := hs.exists_advances hbefore hnext
  obtain rfl := Option.some.inj (hall.symm.trans hplayed)
  obtain rfl := Except.ok.inj (hadvance.symm.trans hafter.advance_eq)
  exact heq

/-! ## What holds at every moment -/

/-- The events that a run takes from the beginning of frame `k` to a moment of frame `j`. -/
def takenSince (script : List (List Event)) (k j : Nat) (now : List Event) : List Event :=
  (((played script).take j).drop k).flatten ++ now

theorem takenSince_self (script : List (List Event)) (k : Nat) (now : List Event) :
    takenSince script k k now = now := by
  rw [takenSince, List.drop_take_self]
  rfl

theorem takenSince_succ (hkj : k ≤ j) (hj : (played script)[j]? = some events) :
    takenSince script k (j + 1) now = takenSince script k j events ++ now := by
  have hlt := (List.getElem?_eq_some_iff.mp hj).1
  have hk : k ≤ ((played script).take j).length := by
    rw [List.length_take]
    omega
  rw [takenSince, List.take_add_one, hj, List.drop_append_of_le_length hk]
  simp [takenSince]

section Invariant

variable {P : List Event → Loop → Prop}

theorem Loop.handle_induction (hevent : ∀ {es l} e, P es l → P (es ++ [e]) (l.handle fresh e))
    {es : List Event} (now : List Event) (h : P es l) :
    P (es ++ now) (now.foldl (Loop.handle fresh) l) := by
  induction now generalizing es l with
  | nil => rwa [List.append_nil]
  | cons e now ih =>
    rw [List.append_cons]
    exact ih (hevent e h)

/-- What holds between two frames, and is kept by every event and by every frame, holds at every
later moment, of the events since then. -/
theorem Starts.induction (hs : Starts m c session fresh first)
    (hk : (loops m c session script first)[k]? = some before) (hP : P [] before)
    (hevent : ∀ {es l} e, P es l → P (es ++ [e]) (l.handle fresh e))
    (hframe : ∀ {es l after}, P es l → l.Advances m after → P es (after.buzz c))
    (hkj : k ≤ j) (h : Moment m c session script j now l) : P (takenSince script k j now) l := by
  obtain ⟨fresh', first', b, events, hs', hb, -, -, rfl⟩ := h
  obtain ⟨rfl, rfl⟩ := hs.unique hs'
  suffices hbegin : P (takenSince script k j []) b by
    have hnow := Loop.handle_induction hevent now hbegin
    rwa [takenSince, List.append_nil] at hnow
  clear hs'
  -- the induction is on the frames since `k`: those before `j` are over, and `now` comes on top
  induction j, hkj using Nat.le_induction generalizing b with
  | base =>
    rw [takenSince_self, ← Option.some.inj (hk.symm.trans hb)]
    exact hP
  | succ j hkj ih =>
    obtain ⟨a, ha⟩ := exists_loop_of_le j.le_succ hb
    obtain ⟨events, after, hevents, hadvances, rfl⟩ := hs.exists_advances ha hb
    have htaken := Loop.handle_induction hevent events (ih a ha)
    rw [takenSince, List.append_nil] at htaken
    rw [takenSince_succ hkj hevents, List.append_nil]
    exact hframe htaken hadvances

theorem Moment.induction_later (h : Moment m c session script k events l)
    (hall : (played script)[k]? = some events)
    (hP : ∀ {after}, l.Advances m after → P [] (after.buzz c))
    (hevent : ∀ {fresh es l} e, P es l → P (es ++ [e]) (l.handle fresh e))
    (hframe : ∀ {es l after}, P es l → l.Advances m after → P es (after.buzz c))
    (hkj : k < j) (h' : Moment m c session script j now l') :
    P (takenSince script (k + 1) j now) l' := by
  obtain ⟨fresh, first, before, -, hs, hbefore, -, -, rfl⟩ := h
  have h₀ := h'
  obtain ⟨fresh', first', b, -, hs', hb, -, -, -⟩ := h₀
  obtain ⟨rfl, rfl⟩ := hs.unique hs'
  obtain ⟨next, hnext⟩ := exists_loop_of_le hkj hb
  obtain ⟨events', after, hevents, hadvances, rfl⟩ := hs.exists_advances hbefore hnext
  obtain rfl := Option.some.inj (hall.symm.trans hevents)
  exact hs.induction hnext (hP hadvances) hevent hframe hkj h'

end Invariant

end Chip8.Window
