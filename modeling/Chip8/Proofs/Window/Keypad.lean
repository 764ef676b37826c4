import Chip8.Proofs.Cycle.Devices
import Chip8.Proofs.Window.Moment

/-! # The keypad of the window

Under each key of the keypad lies one key of the keyboard. The keypad shows which
of these are held down: only events move it, and a lost focus or a reset lets go
of all of them.
-/

namespace Chip8

theorem State.keypad_step {s t : State} (h : s.step = .ok t) : t.keypad = s.keypad := by
  rcases step_eq_ok_iff.mp h with ⟨-, rfl⟩ | ⟨i, -, -, rfl⟩
  · exact (agree_poll .keypad s).symm
  · exact (agree_after (d := .keypad) rfl).symm

theorem Machine.keypad_cycles {m : Machine} {n : Nat} {σ τ : Session} {s t : State}
    {r : Option Fault} (h : m.cycles n σ s = (τ, t, r)) : t.keypad = s.keypad := by
  induction n generalizing σ s with
  | zero =>
    cases h
    rfl
  | succ n ih =>
    have hstep := m.step_snd σ s
    rw [cycles] at h
    rcases hr : m.step σ s with ⟨ρ, f | u⟩
    · rw [hr] at h
      cases h
      rfl
    · rw [hr] at h hstep
      exact (ih h).trans (State.keypad_step hstep.symm)

theorem Machine.keypad_reset {m : Machine} {s : State} (h : m.reset = .ok s) :
    s.keypad = .replicate 16 false := by
  obtain ⟨-, seed, -, rfl⟩ := reset_eq_ok_iff.mp h
  rfl

namespace Window

variable {m : Machine} {c : Config} {fresh : State} {session : Session}
  {script : List (List Event)} {l l' : Loop} {j : Nat} {now es : List Event} {e : Event}
  {key : Key} {name name' : String}

/-! ## The layout -/

theorem mem_layout_of_keypadKey? (h : keypadKey? name = some key) : (name, key) ∈ keypadLayout := by
  obtain ⟨before, after, heq, -⟩ := List.lookup_eq_some_iff.mp h
  rw [heq]
  simp

theorem keypadKey?_inj (h : keypadKey? name = some key) (h' : keypadKey? name' = some key) :
    name = name' := by
  have hinj : ∀ p ∈ keypadLayout, ∀ q ∈ keypadLayout, p.2 = q.2 → p.1 = q.1 := by decide
  exact hinj _ (mem_layout_of_keypadKey? h) _ (mem_layout_of_keypadKey? h') rfl

theorem exists_keypadKey?_eq (key : Key) : ∃ name, keypadKey? name = some key := by
  have hall : ∀ key : Key, ∃ p ∈ keypadLayout, keypadKey? p.1 = some key := by decide
  obtain ⟨p, -, hp⟩ := hall key
  exact ⟨p.1, hp⟩

/-! ## Held keys -/

/-- An event that lets go of a key. -/
def Frees (name : String) (e : Event) : Prop :=
  e = .release name ∨ e = .focusLost ∨ e = .press "F5"

/-- Of the events, one presses the key and none after it lets go of it. -/
def Held (name : String) (events : List Event) : Prop :=
  ∃ before after, events = before ++ .press name :: after ∧ ∀ e ∈ after, ¬ Frees name e

theorem not_held_nil (name : String) : ¬ Held name [] := by
  rintro ⟨before, after, h, -⟩
  simp at h

theorem held_cons_iff :
    Held name (e :: es) ↔ (e = .press name ∧ ∀ x ∈ es, ¬ Frees name x) ∨ Held name es := by
  constructor
  · rintro ⟨_ | ⟨x, before⟩, after, h, hfree⟩
    · obtain ⟨rfl, rfl⟩ := List.cons.inj h
      exact .inl ⟨rfl, hfree⟩
    · exact .inr ⟨before, after, (List.cons.inj h).2, hfree⟩
  · rintro (⟨rfl, hfree⟩ | ⟨before, after, rfl, hfree⟩)
    · exact ⟨[], es, rfl, hfree⟩
    · exact ⟨e :: before, after, rfl, hfree⟩

theorem held_concat_iff :
    Held name (es ++ [e]) ↔ e = .press name ∨ (Held name es ∧ ¬ Frees name e) := by
  induction es with
  | nil => simp [held_cons_iff, not_held_nil]
  | cons x es ih =>
    simp only [List.cons_append, held_cons_iff, ih, List.forall_mem_append,
      List.forall_mem_singleton]
    rw [or_left_comm, or_and_right, and_assoc]

instance (name : String) (e : Event) : Decidable (Frees name e) :=
  inferInstanceAs (Decidable (_ ∨ _ ∨ _))

instance decidableHeld (name : String) : (events : List Event) → Decidable (Held name events)
  | [] => isFalse (not_held_nil name)
  | _ :: es =>
    have := decidableHeld name es
    decidable_of_iff _ held_cons_iff.symm

/-! ## What moves the keypad -/

theorem get_keysUp (key : Key) : (Vector.replicate 16 false).get key = false := by
  change (Vector.replicate 16 false)[key] = false
  simp

def Rekeys : Event → Prop
  | .press name => name = "F5" ∨ (keypadKey? name).isSome
  | .release name => (keypadKey? name).isSome
  | .focusLost => True
  | .quit | .other => False

namespace Loop

theorem get_setKey (hkey : keypadKey? name = some key) (l : Loop) (pressed : String)
    (down : Bool) : (l.setKey pressed down).state.keypad.get key =
      if pressed = name then down else l.state.keypad.get key := by
  unfold setKey
  split
  · next other hother =>
    change (l.state.keypad.set other down)[key] = _
    by_cases hp : pressed = name
    · subst hp
      obtain rfl := Option.some.inj (hother.symm.trans hkey)
      simp
    · have hne : (other : Nat) ≠ key := fun heq =>
        hp (keypadKey?_inj hother (Fin.ext heq ▸ hkey))
      rw [if_neg hp]
      exact Vector.getElem_set_ne _ _ hne
  · next hnone =>
    have hp : pressed ≠ name := by
      rintro rfl
      rw [hnone] at hkey
      cases hkey
    rw [if_neg hp]

theorem keypad_setKey_of_not_key (h : keypadKey? name = none) (l : Loop) (down : Bool) :
    (l.setKey name down).state.keypad = l.state.keypad := by
  simp only [setKey, h]

theorem keypad_handle_of_not_rekeys (fresh : State) (l : Loop) (h : ¬ Rekeys e) :
    (l.handle fresh e).state.keypad = l.state.keypad := by
  cases e with
  | press pressed =>
    rw [Rekeys, not_or, Option.not_isSome_iff_eq_none] at h
    cases hc : command? pressed with
    | none =>
      simp only [handle, hc]
      exact keypad_setKey_of_not_key h.2 l true
    | some command =>
      simp only [handle, hc]
      cases command with
      | reset => exact absurd (command?_eq_some_iff.mp hc) h.1
      | _ => rfl
  | release released => exact keypad_setKey_of_not_key (Option.not_isSome_iff_eq_none.mp h) l false
  | focusLost => exact absurd trivial h
  | quit | other => rfl

theorem get_handle_iff (hfresh : fresh.keypad.get key = false) (hkey : keypadKey? name = some key)
    (l : Loop) (e : Event) :
    (l.handle fresh e).state.keypad.get key = true ↔
      e = .press name ∨ (l.state.keypad.get key = true ∧ ¬ Frees name e) := by
  cases e with
  | press pressed =>
    cases hc : command? pressed with
    | none =>
      have hreset : pressed ≠ "F5" := by
        rintro rfl
        cases hc
      simp only [handle, hc, get_setKey hkey]
      by_cases hp : pressed = name <;> simp [Frees, hp, hreset]
    | some command =>
      obtain rfl := command?_eq_some_iff.mp hc
      have hp : command.keyName ≠ name := by
        rintro rfl
        rw [keypadKey?_keyName] at hkey
        cases hkey
      simp only [handle, hc]
      cases command with
      | reset =>
        simp only [Command.keyName] at hp
        simp [obey, Frees, hfresh, hp, Command.keyName]
      | _ =>
        simp only [Command.keyName] at hp
        simp [obey, tellPace, Frees, hp, Command.keyName]
  | release released =>
    simp only [handle, get_setKey hkey]
    by_cases hp : released = name <;> simp [Frees, hp]
  | focusLost =>
    have hup : (Vector.replicate 16 false).get key = false := get_keysUp key
    simp [handle, State.releaseKeys, Frees, hup]
  | quit | other => simp [handle, Frees]

theorem Advances.keypad_eq (h : l.Advances m l') : l'.state.keypad = l.state.keypad := by
  cases h with
  | rest => rfl
  | full hp hn hc => exact (Machine.keypad_cycles hc :)
  | fault hp hn hc => exact (Machine.keypad_cycles hc :)

end Loop

/-- At every moment the keys that are down are those that the events so far hold. -/
theorem Moment.get_keypad_iff (h : Moment m c session script j now l)
    (hkey : keypadKey? name = some key) :
    l.state.keypad.get key = true ↔ Held name (takenSince script 0 j now) := by
  have h₀ := h
  obtain ⟨fresh, first, -, -, hs, -⟩ := h₀
  have hfresh : fresh.keypad.get key = false := by
    rw [Machine.keypad_reset hs.reset]
    exact get_keysUp key
  refine hs.induction (P := fun es l => l.state.keypad.get key = true ↔ Held name es)
    (show _ = some first from rfl) ?_ ?_ ?_ j.zero_le h
  · obtain ⟨-, -, -, pace, -, rfl⟩ := hs
    simp [Loop.start, hfresh, not_held_nil]
  · intro es l e ih
    rw [held_concat_iff, Loop.get_handle_iff hfresh hkey, ih]
  · intro es l after ih hafter
    rw [← ih, ← hafter.keypad_eq]
    rfl

/-- At every moment of a run, and in every cycle that a frame sets out on, the keypad shows which
keys of the keyboard are held. -/
theorem keypad_shows_held (h : Moment m c session script j now l) :
    (∀ key, ∃ name, (∀ name', keypadKey? name' = some key ↔ name' = name) ∧
      (l.state.keypad.get key = true ↔ Held name (takenSince script 0 j now)) ∧
      ∀ i σ u, l.Attempts m i σ u →
        (u.keypad.get key = true ↔ Held name (takenSince script 0 j now))) ∧
    (∀ (fresh : State) (l : Loop) (e : Event), ¬ Rekeys e →
      (l.handle fresh e).state.keypad = l.state.keypad) ∧
    (∀ s t : State, s.step = .ok t → t.keypad = s.keypad) ∧
    (∀ s : State, s.tick.keypad = s.keypad) ∧
    keypadLayout.length = 16 ∧ (keypadLayout.map Prod.fst).Nodup ∧
      (keypadLayout.map Prod.snd).Nodup := by
  refine ⟨fun key => ?_, fun fresh l e he => l.keypad_handle_of_not_rekeys fresh he,
    fun s t => State.keypad_step, fun s => rfl, rfl, by decide, by decide⟩
  obtain ⟨name, hname⟩ := exists_keypadKey?_eq key
  have hheld := h.get_keypad_iff hname
  refine ⟨name, fun name' => ⟨fun h' => keypadKey?_inj h' hname, fun h' => h' ▸ hname⟩, hheld,
    fun i σ u hu => ?_⟩
  rw [Machine.keypad_cycles hu.cycles]
  exact hheld

theorem keypad_shows_held_since_focus :
    ∃ m c session script now l σ u, Moment m c session script 1 now l ∧ l.Attempts m 3 σ u ∧
      takenSince script 0 1 now = [.press "x", .press "p", .focusLost, .press "p", .press "w"] ∧
      u.keypad.get 0x0 = false ∧ u.keypad.get 0x5 = true := by
  let m := Machine.ofProgram [0x12, 0x00]
  let c : Config := { measured := .real 0x404E000000000000, font := .fixed 7 18 }
  let session : Session :=
    ⟨{ logger := .make "chix8" "INFO" .absent false false (.whole 0) }, .whole 0, 0⟩
  let now : List Event := [.focusLost, .press "p", .press "w"]
  let script : List (List Event) := [[.press "x", .press "p"], now]
  have hcheck : (m.reset.toOption.any fun s => (run m c session script).frames[0]?.any fun frame =>
      let l := now.foldl (Loop.handle s) frame.loop
      !l.paused && l.pace == .whole 11 &&
        (l.state.follow (State.cyclesOnly 3)).toOption.any fun _ => true) = true := by
    decide +kernel
  obtain ⟨fresh, hreset, hcheck⟩ := exists_ok_of_any hcheck
  obtain ⟨frame, hframe, hcheck⟩ := (Option.any_eq_true _ _).mp hcheck
  simp only [Bool.and_eq_true, Bool.not_eq_true', beq_iff_eq] at hcheck
  obtain ⟨⟨hpaused, hpace⟩, hcheck⟩ := hcheck
  obtain ⟨u, hu, -⟩ := exists_ok_of_any hcheck
  let l := now.foldl (Loop.handle fresh) frame.loop
  obtain ⟨σ, hσ, -⟩ := Machine.cycles_of_follow (m := m) l.session hu
  have hattempts : l.Attempts m 3 σ u :=
    ⟨hpaused, ⟨11, by rw [hpace]; rfl, by decide⟩, hσ⟩
  have hstart : Starts m c session fresh (.start c session fresh (.whole 11)) :=
    starts_ofProgram rfl hreset
  have hmoment : Moment m c session script 1 now l := by
    refine ⟨fresh, _, frame.loop, now, hstart, ?_, rfl, List.prefix_rfl, rfl⟩
    rw [loops, List.getElem?_cons_succ, List.getElem?_map, hframe]
    rfl
  obtain ⟨hlaw, -⟩ := keypad_shows_held hmoment
  refine ⟨m, c, session, script, now, l, σ, u, hmoment, hattempts, rfl, ?_, ?_⟩
  · obtain ⟨name, hname, -, hsteps⟩ := hlaw 0x0
    obtain rfl : "x" = name := (hname "x").mp rfl
    have hup : ¬ Held "x" (takenSince script 0 1 now) := by decide
    rwa [← hsteps 3 σ u hattempts, Bool.not_eq_true] at hup
  · obtain ⟨name, hname, -, hsteps⟩ := hlaw 0x5
    obtain rfl : "w" = name := (hname "w").mp rfl
    exact (hsteps 3 σ u hattempts).mpr (by decide)

end Window

end Chip8
