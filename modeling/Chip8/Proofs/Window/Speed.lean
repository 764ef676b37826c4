import Chip8.Proofs.Window.Moment

/-! # The speed of the window

Two keys change the number of cycles in a frame by three and keep it within 1 and
100, and nothing else changes it. A machine may start with more than 100: then the
key that should make it faster makes it slower.
-/

namespace Chip8.Window

variable {m : Machine} {c : Config} {session : Session} {script : List (List Event)}
  {l l' : Loop} {j p : Nat} {rate fps : Int} {now events : List Event} {e : Event}

/-- The number of cycles in a frame after an event. -/
def paceAfter (p : Nat) : Event → Nat
  | .press "EQUALS" => min 100 (p + 3)
  | .press "MINUS" => max 1 (p - 3)
  | _ => p

theorem Scheduler.pace_setKey (q : Scheduler) (key : String) (down : Bool) :
    (q.setKey key down).pace = q.pace := by
  unfold setKey
  split <;> rfl

theorem Scheduler.pace_take (fresh : State) (q : Scheduler) (e : Event) :
    (q.take fresh e).pace = paceAfter q.pace e := by
  cases e with
  | press key =>
    change (q.press fresh key).pace = _
    unfold press
    split
    · rfl
    · rfl
    · rfl
    · rfl
    · next hfaster hslower =>
      rw [pace_setKey]
      unfold paceAfter
      split
      · next heq => exact absurd (Event.press.inj heq) hfaster
      · next heq => exact absurd (Event.press.inj heq) hslower
      · rfl
  | release key => exact q.pace_setKey key false
  | focusLost | quit | other => rfl

theorem Loop.pace_handle (hp : l.pace = .whole p) (fresh : State) (e : Event) :
    (l.handle fresh e).pace = .whole (paceAfter p e) := by
  have hfollows : l.Follows ⟨l.state, l.paused, p, l.session.executed⟩ := ⟨rfl, rfl, hp, rfl⟩
  rw [(hfollows.handle fresh e).pace, Scheduler.pace_take]

theorem Loop.Advances.pace_eq (h : l.Advances m l') : l'.pace = l.pace := by
  cases h <;> rfl

theorem paceAfter_pos (hp : 1 ≤ p) (e : Event) : 1 ≤ paceAfter p e := by
  unfold paceAfter
  split <;> omega

theorem paceAfter_le_of_ne (he : e ≠ .press "EQUALS") (hp : 1 ≤ p) : paceAfter p e ≤ p := by
  unfold paceAfter
  split
  · exact absurd rfl he
  · omega
  · exact Nat.le_refl p

theorem paceAfter_of_ne (hfaster : e ≠ .press "EQUALS") (hslower : e ≠ .press "MINUS") :
    paceAfter p e = p := by
  unfold paceAfter
  split
  · exact absurd rfl hfaster
  · exact absurd rfl hslower
  · rfl

theorem foldl_paceAfter_pos (hp : 1 ≤ p) (events : List Event) :
    1 ≤ events.foldl paceAfter p := by
  induction events generalizing p with
  | nil => exact hp
  | cons e events ih => exact ih (paceAfter_pos hp e)

theorem foldl_paceAfter_le (hp : 1 ≤ p) (events : List Event) :
    events.foldl paceAfter p ≤ 100 ∨
      .press "EQUALS" ∉ events ∧ events.foldl paceAfter p ≤ p := by
  induction events generalizing p with
  | nil => exact .inr ⟨List.not_mem_nil, Nat.le_refl p⟩
  | cons e events ih =>
    have hlater := ih (paceAfter_pos hp e)
    rw [List.foldl_cons]
    by_cases he : e = .press "EQUALS"
    · subst he
      have hbound : paceAfter p (.press "EQUALS") ≤ 100 := Nat.min_le_left 100 (p + 3)
      rcases hlater with hle | ⟨-, hle⟩
      · exact .inl hle
      · exact .inl (Nat.le_trans hle hbound)
    · rcases hlater with hle | ⟨hnot, hle⟩
      · exact .inl hle
      · refine .inr ⟨?_, Nat.le_trans hle (paceAfter_le_of_ne he hp)⟩
        exact List.not_mem_cons_of_ne_of_not_mem (Ne.symm he) hnot

/-! ## Runs -/

theorem takenSince_concat (script : List (List Event)) (k j : Nat) (now : List Event) (e : Event) :
    takenSince script k j (now ++ [e]) = takenSince script k j now ++ [e] := by
  rw [takenSince, takenSince, List.append_assoc]

/-- At every moment the pace is what the events so far make of that of the machine. -/
theorem Moment.pace_eq (hrate : m.dialect.frequency = .number rate) (hfps : m.fps = .number fps)
    (h : Moment m c session script j now l) :
    l.pace = .whole
      ((takenSince script 0 j now).foldl paceAfter (max 1 (rate / fps)).toNat : Nat) := by
  have h₀ := h
  obtain ⟨fresh, first, -, -, hs, -⟩ := h₀
  refine hs.induction
    (P := fun es l => l.pace = .whole (es.foldl paceAfter (max 1 (rate / fps)).toNat : Nat))
    (show _ = some first from rfl) ?_ ?_ ?_ j.zero_le h
  · obtain ⟨-, -, -, pace, hpace, rfl⟩ := hs
    rw [Machine.pace_of_numbers hrate hfps] at hpace
    obtain rfl := Except.ok.inj hpace
    change Quantity.whole _ = Quantity.whole _
    congr 1
    simp only [List.foldl_nil]
    omega
  · intro es l e hl
    rw [List.foldl_append]
    exact Loop.pace_handle hl fresh e
  · intro es l after hl hafter
    exact hafter.pace_eq.trans hl

/-- At every moment of a run a frame has at least one cycle. More than 100 are left from the start
by a run in which the key for more has not been pressed. The key for less never adds any, the key
for more takes some away exactly if there are more than 100, and neither another event nor the
frame changes their number. -/
theorem pace_of_moment (hrate : m.dialect.frequency = .number rate) (hfps : m.fps = .number fps)
    (h : Moment m c session script j now l) :
    ∃ p : Nat, l.pace = .whole p ∧ 1 ≤ p ∧
      (100 < p → p ≤ rate / fps ∧ .press "EQUALS" ∉ takenSince script 0 j now) ∧
      (∀ after, l.advance m = .ok after → after.pace = .whole p) ∧
      ∀ e l', Moment m c session script j (now ++ [e]) l' →
        ∃ p' : Nat, l'.pace = .whole p' ∧ 1 ≤ p' ∧
          (e = .press "MINUS" → p' ≤ p) ∧
          (e = .press "EQUALS" → p' ≤ 100 ∧ (p ≤ p' ↔ p ≤ 100)) ∧
          (e ≠ .press "EQUALS" → e ≠ .press "MINUS" → p' = p) := by
  have hstart : 1 ≤ (max 1 (rate / fps)).toNat := by omega
  have hpos := foldl_paceAfter_pos hstart (takenSince script 0 j now)
  refine ⟨_, h.pace_eq hrate hfps, hpos, ?_, ?_, ?_⟩
  · intro hfast
    rcases foldl_paceAfter_le hstart (takenSince script 0 j now) with hle | ⟨hnot, hle⟩
    · omega
    · exact ⟨by omega, hnot⟩
  · intro after hafter
    rw [(Loop.advance_eq_ok_iff.mp hafter).pace_eq, h.pace_eq hrate hfps]
  · intro e l' h'
    have hlater := h'.pace_eq hrate hfps
    rw [takenSince_concat, List.foldl_append] at hlater
    generalize (takenSince script 0 j now).foldl paceAfter _ = p at hpos hlater
    refine ⟨paceAfter p e, hlater, paceAfter_pos hpos e, ?_, ?_, paceAfter_of_ne⟩
    · rintro rfl
      exact Nat.max_le.mpr ⟨hpos, Nat.sub_le p 3⟩
    · rintro rfl
      change min 100 (p + 3) ≤ 100 ∧ (p ≤ min 100 (p + 3) ↔ p ≤ 100)
      omega

/-! ## A machine that starts faster than the bound -/

def plainWindow : Config := { font := .fixed 7 18 }

def fastMachine : Machine :=
  { Machine.ofProgram [0x12, 0x00] with dialect := { frequency := .number 12000 } }

theorem frequency_fastMachine : fastMachine.dialect.frequency = .number 12000 := rfl

theorem fps_fastMachine : fastMachine.fps = .number 60 := rfl

theorem exists_moment_fastMachine (session : Session) (hnow : now <+: [.press "EQUALS"]) :
    ∃ l, Moment fastMachine plainWindow session [[.press "EQUALS"]] 0 now l ∧
      l.pace = .whole (now.foldl paceAfter 200 : Nat) := by
  have hlength : fastMachine.program.length ≤ 3584 := by decide
  have hseed : fastMachine.seedValue = .ok 0 := rfl
  obtain ⟨fresh, hreset⟩ := Machine.exists_reset hlength hseed
  have hs : Starts fastMachine plainWindow session fresh _ :=
    ⟨⟨_, rfl⟩, ⟨_, rfl⟩, hreset, _,
      Machine.pace_of_numbers frequency_fastMachine fps_fastMachine, rfl⟩
  have hplayed : (played [[.press "EQUALS"]])[0]? = some [.press "EQUALS"] := rfl
  obtain ⟨l, hl⟩ := hs.exists_moment (Nat.zero_le _) hplayed hnow
  have hpace := hl.pace_eq frequency_fastMachine fps_fastMachine
  rw [takenSince_self] at hpace
  exact ⟨l, hl, hpace⟩

theorem pace_of_moment_fastMachine :
    ∃ session l, ∃ p : Nat, Moment fastMachine plainWindow session [[.press "EQUALS"]] 0 [] l ∧
      l.pace = .whole p ∧ 100 < p ∧ p ≤ (12000 / 60 : Int) := by
  let session : Session :=
    ⟨{ logger := .make "chix8" "INFO" .absent false false (.whole 0) }, .whole 0, 0⟩
  obtain ⟨l, hl, hstart⟩ := exists_moment_fastMachine session List.nil_prefix
  obtain ⟨p, hp, -, hfast, -⟩ := pace_of_moment frequency_fastMachine fps_fastMachine hl
  have hfaster : 100 < p := by
    have heq : (p : Int) = 200 := Quantity.whole.inj (hp.symm.trans hstart)
    omega
  exact ⟨session, l, p, hl, hp, hfaster, (hfast hfaster).1⟩

/-- The key that should make the machine faster halves the number of its cycles in a frame. -/
theorem faster_key_slows :
    ∃ session l l', Moment fastMachine plainWindow session [[.press "EQUALS"]] 0 [] l ∧
      Moment fastMachine plainWindow session [[.press "EQUALS"]] 0 [.press "EQUALS"] l' ∧
      l.pace = .whole 200 ∧ l'.pace = .whole 100 := by
  let session : Session :=
    ⟨{ logger := .make "chix8" "INFO" .absent false false (.whole 0) }, .whole 0, 0⟩
  obtain ⟨l, hl, hstart⟩ := exists_moment_fastMachine session List.nil_prefix
  obtain ⟨l', hl', hlater⟩ := exists_moment_fastMachine session (List.prefix_refl _)
  exact ⟨session, l, l', hl, hl', hstart, hlater⟩

end Chip8.Window
