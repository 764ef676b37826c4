import Chip8.Proofs.Run.Pace
import Chip8.Window.Loop

/-! # The scheduler of the window

What the window keeps of the machine it shows, and nothing of how it shows it: a
state, whether it is paused and how many cycles a frame has. Events change these
one after the other. A frame then rests, or it runs its cycles and a tick, or it
stops before the first cycle that fails.
-/

namespace Chip8.Window

variable {fresh : State} {key : String} {e : Event} {events : List Event}
  {script : List (List Event)} {l : Loop}

def Command.keyName : Command → String
  | quit => "ESCAPE"
  | pause => "p"
  | inspect => "F1"
  | reset => "F5"
  | faster => "EQUALS"
  | slower => "MINUS"

theorem command?_eq_some_iff {c : Command} : command? key = some c ↔ key = c.keyName := by
  constructor
  · intro h
    unfold command? at h
    split at h
    all_goals cases h
    all_goals rfl
  · rintro rfl
    cases c <;> rfl

theorem keypadKey?_keyName (command : Command) : keypadKey? command.keyName = none := by
  cases command <;> decide

/-- The window as a scheduler of frames, with the number of cycles that have succeeded so far. -/
structure Scheduler where
  state : State
  paused : Bool
  pace : Nat
  executed : Nat

namespace Scheduler

variable {q r : Scheduler} {qs : List Scheduler}

/-! ## Frames -/

def setKey (q : Scheduler) (key : String) (down : Bool) : Scheduler :=
  match keypadKey? key with
  | some k => { q with state := q.state.setKey k down }
  | none => q

def press (fresh : State) (q : Scheduler) : String → Scheduler
  | "p" => { q with paused := !q.paused }
  | "F5" => { q with state := fresh, paused := false }
  | "EQUALS" => { q with pace := min 100 (q.pace + 3) }
  | "MINUS" => { q with pace := max 1 (q.pace - 3) }
  | key => q.setKey key true

def take (fresh : State) (q : Scheduler) : Event → Scheduler
  | .press key => q.press fresh key
  | .release key => q.setKey key false
  | .focusLost => { q with state := q.state.releaseKeys }
  | .quit | .other => q

/-- The run of one frame, after its events. -/
inductive Runs (q : Scheduler) : Scheduler → Prop
  | rest (hp : q.paused = true) : q.Runs q
  | full {t : State} (hp : q.paused = false)
      (ht : q.state.follow (State.cyclesOnly q.pace) = .ok t) :
      q.Runs { q with state := t.tick, executed := q.executed + q.pace }
  | fault {k : Nat} {u : State} {f : Fault} (hp : q.paused = false)
      (hf : q.state.FailsWithin q.pace k u f) :
      q.Runs { q with state := u, paused := true, executed := q.executed + k }

/-- Frames with their events, each listed as it ends. -/
inductive Plays (fresh : State) : Scheduler → List (List Event) → List Scheduler → Prop
  | nil (q : Scheduler) : Plays fresh q [] []
  | cons {q r : Scheduler} {events : List Event} {script : List (List Event)}
      {qs : List Scheduler} (hrun : (events.foldl (take fresh) q).Runs r)
      (hrest : Plays fresh r script qs) : Plays fresh q (events :: script) (r :: qs)

theorem Runs.eq_of_paused (h : q.Runs r) (hp : q.paused = true) : r = q := by
  cases h with
  | rest => rfl
  | full hp' => exact nomatch hp.symm.trans hp'
  | fault hp' => exact nomatch hp.symm.trans hp'

theorem Runs.unique {r' : Scheduler} (h : q.Runs r) (h' : q.Runs r') : r = r' := by
  cases h with
  | rest hp => exact (h'.eq_of_paused hp).symm
  | full hp ht =>
    cases h' with
    | rest hp' => exact nomatch hp.symm.trans hp'
    | full hp' ht' => rw [Except.ok.inj (ht.symm.trans ht')]
    | fault hp' hf => exact absurd ht hf.not_follow
  | fault hp hf =>
    cases h' with
    | rest hp' => exact nomatch hp.symm.trans hp'
    | full hp' ht => exact absurd ht hf.not_follow
    | fault hp' hf' =>
      obtain ⟨rfl, rfl, -⟩ := hf.unique hf'
      rfl

theorem Plays.unique {rs : List Scheduler} (h : Plays fresh q script qs)
    (h' : Plays fresh q script rs) : qs = rs := by
  induction h generalizing rs with
  | nil q =>
    cases h'
    rfl
  | cons hrun hrest ih =>
    cases h' with
    | cons hrun' hrest' =>
      obtain rfl := hrun.unique hrun'
      rw [ih hrest']

/-! ## Frames without events -/

/-- An event that changes nothing of a scheduler. -/
def Neutral : Event → Prop
  | .press key => key ∉ ["p", "F5", "EQUALS", "MINUS"] ∧ keypadKey? key = none
  | .release key => keypadKey? key = none
  | .focusLost => False
  | .quit | .other => True

theorem setKey_of_not_key (q : Scheduler) (h : keypadKey? key = none) (down : Bool) :
    q.setKey key down = q := by
  simp only [setKey, h]

theorem take_of_neutral (q : Scheduler) (h : Neutral e) : q.take fresh e = q := by
  cases e with
  | press key =>
    obtain ⟨hkey, hk⟩ := h
    change q.press fresh key = q
    unfold press
    split
    · exact absurd (by decide) hkey
    · exact absurd (by decide) hkey
    · exact absurd (by decide) hkey
    · exact absurd (by decide) hkey
    · exact q.setKey_of_not_key hk true
  | release key => exact q.setKey_of_not_key h false
  | focusLost => exact h.elim
  | quit => rfl
  | other => rfl

theorem takeAll_of_neutral (q : Scheduler) (h : ∀ e ∈ events, Neutral e) :
    events.foldl (take fresh) q = q := by
  induction events with
  | nil => rfl
  | cons e events ih =>
    rw [List.foldl_cons, take_of_neutral q (h e List.mem_cons_self)]
    exact ih fun e he => h e (List.mem_cons_of_mem _ he)

theorem Plays.eq_of_paused {i : Nat} (h : Plays fresh q script qs) (hp : q.paused = true)
    (hi : qs[i]? = some r) (hn : ∀ events ∈ script.take (i + 1), ∀ e ∈ events, Neutral e) :
    r = q := by
  induction h generalizing i with
  | nil q => cases hi
  | @cons q r' events script qs hrun hrest ih =>
    rw [List.take_succ_cons] at hn
    rw [takeAll_of_neutral q (hn events List.mem_cons_self)] at hrun
    obtain rfl := hrun.eq_of_paused hp
    cases i with
    | zero => exact (Option.some.inj hi).symm
    | succ i =>
      exact ih hp hi fun events he => hn events (List.mem_cons_of_mem _ he)

theorem Plays.run {m : Machine} {σ : Session} {i : Nat} (h : Plays fresh q script qs)
    (hp : q.paused = false) (hm : m.frameLength = .ok q.pace) (hσ : σ.executed = q.executed)
    (hi : qs[i]? = some r) (hn : ∀ events ∈ script.take (i + 1), ∀ e ∈ events, Neutral e) :
    (m.run (i + 1) σ q.state).1.executed = r.executed ∧
      ∀ t, (m.run (i + 1) σ q.state).2 = .ok t ↔ r.paused = false ∧ r.state = t := by
  induction h generalizing i σ with
  | nil q => cases hi
  | @cons q r' events script qs hrun hrest ih =>
    rw [List.take_succ_cons] at hn
    rw [takeAll_of_neutral q (hn events List.mem_cons_self)] at hrun
    have hn' : ∀ events ∈ script.take i, ∀ e ∈ events, Neutral e :=
      fun events he => hn events (List.mem_cons_of_mem _ he)
    cases hrun with
    | rest hp' => exact nomatch hp.symm.trans hp'
    | @full t _ ht =>
      obtain ⟨τ, hτ, hsum⟩ := Machine.runFrame_of_follow σ hm ht
      rw [Machine.run, hτ]
      cases i with
      | zero =>
        obtain rfl := Option.some.inj hi
        refine ⟨by simp [Machine.run, hsum, hσ], fun v => ?_⟩
        simp [Machine.run, hp]
      | succ i => exact ih hp hm (by rw [hsum, hσ]) hi hn'
    | @fault k u f _ hf =>
      obtain ⟨τ, hτ, hsum⟩ := Machine.runFrame_of_fails σ hm hf
      rw [Machine.run, hτ]
      -- the machine stops for good here, and the window rests in all later frames
      have hr : r = { q with state := u, paused := true, executed := q.executed + k } := by
        cases i with
        | zero => exact (Option.some.inj hi).symm
        | succ i => exact hrest.eq_of_paused rfl hi hn'
      subst hr
      exact ⟨by rw [hsum, hσ], fun v => ⟨nofun, nofun⟩⟩

end Scheduler

/-! ## Scripts -/

def Closes (e : Event) : Prop := e = .quit ∨ e = .press "ESCAPE"

instance (e : Event) : Decidable (Closes e) := inferInstanceAs (Decidable (_ ∨ _))

/-- The frames that are played: those up to the first that asks the window to close, or all and
one more that does. -/
def played : List (List Event) → List (List Event)
  | [] => [[.quit]]
  | events :: rest => if ∃ e ∈ events, Closes e then [events] else events :: played rest

/-! ## The loop as a scheduler -/

/-- A loop that keeps what a scheduler keeps. -/
structure Loop.Follows (l : Loop) (q : Scheduler) : Prop where
  state : l.state = q.state
  paused : l.paused = q.paused
  pace : l.pace = .whole q.pace
  executed : l.session.executed = q.executed

namespace Loop

variable {q : Scheduler}

theorem setKey_of_command {c : Command} (hc : command? key = some c)
    (h : key ≠ "p" ∧ key ≠ "F5" ∧ key ≠ "EQUALS" ∧ key ≠ "MINUS") :
    (c = .quit ∨ c = .inspect) ∧ q.setKey key true = q := by
  obtain rfl := command?_eq_some_iff.mp hc
  refine ⟨?_, q.setKey_of_not_key (keypadKey?_keyName c) true⟩
  cases c with
  | quit => exact .inl rfl
  | inspect => exact .inr rfl
  | pause => exact absurd rfl h.1
  | reset => exact absurd rfl h.2.1
  | faster => exact absurd rfl h.2.2.1
  | slower => exact absurd rfl h.2.2.2

theorem faster_natCast (n : Nat) :
    (Quantity.whole 100).min ((Quantity.whole n).plus 3) = .whole (min 100 (n + 3) : Nat) := by
  rw [Quantity.plus_whole, Quantity.min_whole]
  congr 1
  split <;> omega

theorem slower_natCast (n : Nat) :
    (Quantity.whole 1).max ((Quantity.whole n).plus (-3)) = .whole (max 1 (n - 3) : Nat) := by
  rw [Quantity.plus_whole, Quantity.max_whole]
  congr 1
  split <;> omega

theorem Follows.setKey (h : l.Follows q) (key : String) (down : Bool) :
    (l.setKey key down).Follows (q.setKey key down) := by
  unfold Loop.setKey Scheduler.setKey
  cases keypadKey? key with
  | none => exact h
  | some k => exact ⟨congrArg (State.setKey · k down) h.state, h.paused, h.pace, h.executed⟩

theorem Follows.press (h : l.Follows q) (fresh : State) (key : String) :
    (l.handle fresh (.press key)).Follows (q.press fresh key) := by
  unfold Scheduler.press
  split
  · exact ⟨h.state, congrArg (!·) h.paused, h.pace, h.executed⟩
  · exact ⟨rfl, rfl, h.pace, h.executed⟩
  · refine ⟨h.state, h.paused, ?_, h.executed⟩
    change (Quantity.whole 100).min (l.pace.plus 3) = _
    rw [h.pace, faster_natCast]
  · refine ⟨h.state, h.paused, ?_, h.executed⟩
    change (Quantity.whole 1).max (l.pace.plus (-3)) = _
    rw [h.pace, slower_natCast]
  · next hp hr hf hs =>
    cases hc : command? key with
    | none =>
      simp only [handle, hc]
      exact h.setKey key true
    | some c =>
      obtain ⟨hquit, hsame⟩ := setKey_of_command (q := q) hc ⟨hp, hr, hf, hs⟩
      rw [hsame]
      simp only [handle, hc]
      rcases hquit with rfl | rfl
      · exact ⟨h.state, h.paused, h.pace, h.executed⟩
      · exact ⟨h.state, h.paused, h.pace, h.executed⟩

theorem Follows.handle (h : l.Follows q) (fresh : State) (e : Event) :
    (l.handle fresh e).Follows (q.take fresh e) := by
  cases e with
  | press key => exact h.press fresh key
  | release key => exact h.setKey key false
  | focusLost => exact ⟨congrArg State.releaseKeys h.state, h.paused, h.pace, h.executed⟩
  | quit => exact ⟨h.state, h.paused, h.pace, h.executed⟩
  | other => exact h

theorem Follows.handleAll (h : l.Follows q) (fresh : State) (events : List Event) :
    (events.foldl (Loop.handle fresh) l).Follows (events.foldl (Scheduler.take fresh) q) := by
  induction events generalizing l q with
  | nil => exact h
  | cons e events ih => exact ih (h.handle fresh e)

/-! ## The end of the loop -/

@[simp] theorem running_setKey (l : Loop) (key : String) (down : Bool) :
    (l.setKey key down).running = l.running := by
  unfold setKey
  split <;> rfl

theorem running_handle (fresh : State) (l : Loop) (e : Event) :
    (l.handle fresh e).running = true ↔ l.running = true ∧ ¬ Closes e := by
  cases e with
  | press key =>
    have hkey : Closes (.press key) ↔ command? key = some .quit := by
      simp [Closes, command?_eq_some_iff, Command.keyName]
    rw [hkey, handle]
    cases hc : command? key with
    | none => simp
    | some c => cases c <;> simp [obey, tellPace]
  | release key => simp [handle, Closes]
  | focusLost => simp [handle, Closes]
  | quit => simp [handle, Closes]
  | other => simp [handle, Closes]

theorem running_handleAll (fresh : State) (l : Loop) (events : List Event) :
    (events.foldl (handle fresh) l).running = true ↔
      l.running = true ∧ ∀ e ∈ events, ¬ Closes e := by
  induction events generalizing l with
  | nil => simp
  | cons e events ih =>
    rw [List.foldl_cons, ih, running_handle, List.forall_mem_cons, and_assoc]

end Loop

end Chip8.Window
