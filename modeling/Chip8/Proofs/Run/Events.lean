import Chip8.Proofs.Cycle.Devices
import Chip8.Proofs.Run.Pair
import Chip8.Proofs.Run.Reach

/-! # Events

A tick or a key changes devices only, and makes of each what it finds there. So it
commutes with whatever does not use those devices: with other events, with polls
if it is a tick, and with most instructions, whether they succeed or fail. In a
run it can therefore be delivered earlier or later.
-/

namespace Chip8

namespace Instruction

def usesTimers : Instruction → Bool
  | getDelay _ | setDelay _ | setSound _ => true
  | _ => false

def usesKeypad : Instruction → Bool
  | skipKey _ | skipNotKey _ | waitKey _ => true
  | _ => false

def uses (i : Instruction) : Stimulus → Bool
  | .tick => i.usesTimers
  | .setKey _ _ | .releaseKeys => i.usesKeypad
  | .cycle => false

theorem unused_of_usesTimers {i : Instruction} (h : i.usesTimers = false) (τ : Timer) :
    i.reads (.timer τ) = false ∧ i.writes (.timer τ) = false := by
  cases i with
  | getDelay | setDelay | setSound => cases h
  | _ => cases τ <;> exact ⟨rfl, rfl⟩

theorem unused_of_usesKeypad {i : Instruction} (h : i.usesKeypad = false) :
    i.reads .keypad = false ∧ i.writes .keypad = false := by
  cases i with
  | skipKey | skipNotKey | waitKey => cases h
  | _ => exact ⟨rfl, rfl⟩

end Instruction

namespace Stimulus

/-- Two moves decide about the same key. -/
def Clashes : Stimulus → Stimulus → Prop
  | setKey key _, setKey key' _ => key = key'
  | setKey _ _, releaseKeys | releaseKeys, setKey _ _ => True
  | _, _ => False

def act : Stimulus → State → State
  | cycle => id
  | tick => State.tick
  | setKey key down => (·.setKey key down)
  | releaseKeys => State.releaseKeys

def devices : Stimulus → List Device
  | cycle => []
  | tick => [.timer .delay, .timer .sound]
  | setKey _ _ | releaseKeys => [.keypad]

end Stimulus

namespace State

variable {s t : State} {i : Instruction} {x y : Stimulus} {xs ys : List Stimulus}
  {D : List Device} {f g : State → State}

/-! ## Maps of devices -/

/-- A map that changes some devices only, each by what it held alone. -/
structure Moves (D : List Device) (g : State → State) : Prop where
  differs : ∀ s, DiffersOnly D s (g s)
  congr : ∀ {d : Device} {s t : State}, d.Agree s t → d.Agree (g s) (g t)

/-- A map of devices commutes with what neither reads nor writes them. -/
theorem Moves.commute (hg : Moves D g)
    (hf : ∀ {s t : State}, DiffersOnly D s t → DiffersOnly D (f s) (f t))
    (hkeep : ∀ d ∈ D, ∀ s, d.Agree s (f s)) (s : State) : f (g s) = g (f s) := by
  have h : DiffersOnly D (f (g s)) (g (f s)) := (hf (hg.differs s)).symm.trans (hg.differs (f s))
  refine h.alike.eq fun d => ?_
  by_cases hd : d ∈ D
  · exact (hkeep d hd (g s)).symm.trans (hg.congr (hkeep d hd s))
  · exact h.agree d hd

theorem Moves.step (hg : Moves D g) (hw : s.waiting ≠ none → .keypad ∉ D)
    (hi : ∀ i, s.due? = some i → ∀ d ∈ D, i.reads d = false ∧ i.writes d = false) :
    (g s).step = s.step.map g := by
  have h := (hg.differs s).alike
  refine (InStep.step h.waiting_eq h.peek_eq (fun hwait => ?_) fun i hd => ?_).eq_map
  · exact hg.commute (·.poll (hw hwait)) (fun d _ => agree_poll d) s
  · refine ⟨h.fault?_eq i, ?_⟩
    exact hg.commute (f := fun s => i.after s.advance) (·.after fun d hmem => (hi i hd d hmem).1)
      (fun d hmem _ => agree_after (hi i hd d hmem).2) s

theorem moves_tick : Moves [.timer .delay, .timer .sound] tick where
  differs s := by
    refine ⟨⟨_, _, _, _, rfl⟩, fun d hd => ?_⟩
    cases d with
    | timer τ => cases τ <;> exact absurd hd (by decide)
    | keypad | generator => rfl
  congr {d s t} h := by
    cases d with
    | timer τ =>
      change τ.value s.tick = τ.value t.tick
      rw [τ.value_tick, τ.value_tick, show τ.value s = τ.value t from h]
    | keypad | generator => exact h

theorem moves_keypad (keys : Vector Bool 16 → Vector Bool 16) :
    Moves [.keypad] fun s => { s with keypad := keys s.keypad } where
  differs s := by
    refine ⟨⟨_, _, _, _, rfl⟩, fun d hd => ?_⟩
    cases d with
    | timer τ => cases τ <;> rfl
    | keypad => exact absurd (List.mem_singleton_self _) hd
    | generator => rfl
  congr {d s t} h := by
    cases d with
    | timer τ => cases τ <;> exact h
    | keypad => exact congrArg keys h
    | generator => exact h

theorem moves_act (x : Stimulus) : Moves x.devices x.act := by
  cases x with
  | cycle => exact ⟨fun s => ⟨⟨_, _, _, _, rfl⟩, fun d _ => d.agree_refl s⟩, id⟩
  | tick => exact moves_tick
  | setKey key down => exact moves_keypad (·.set key down)
  | releaseKeys => exact moves_keypad fun _ => .replicate 16 false

/-! ## Events and moves -/

theorem unused_of_uses (h : i.uses x = false) :
    ∀ d ∈ x.devices, i.reads d = false ∧ i.writes d = false := by
  intro d hd
  cases x with
  | cycle => cases hd
  | tick =>
    cases d with
    | timer τ => exact Instruction.unused_of_usesTimers h τ
    | keypad | generator => exact absurd hd (by decide)
  | setKey key down | releaseKeys =>
    obtain rfl : d = .keypad := List.mem_singleton.mp hd
    exact Instruction.unused_of_usesKeypad h

theorem step_act (hw : s.waiting ≠ none → .keypad ∉ x.devices)
    (hi : ∀ i, s.due? = some i → i.uses x = false) : (x.act s).step = s.step.map x.act :=
  (moves_act x).step hw fun i hd => unused_of_uses (hi i hd)

theorem setKey_comm {key key' : Key} (h : key ≠ key') (down down' : Bool) (s : State) :
    (s.setKey key down).setKey key' down' = (s.setKey key' down').setKey key down := by
  have hne : key.val ≠ key'.val := fun hv => h (Fin.ext hv)
  simp only [setKey, Vector.set_comm _ _ hne]

theorem act_comm (h : ¬ x.Clashes y) (s : State) : y.act (x.act s) = x.act (y.act s) := by
  cases x with
  | setKey key down =>
    cases y with
    | setKey key' down' => exact setKey_comm h down down' s
    | releaseKeys => exact absurd trivial h
    | _ => rfl
  | releaseKeys =>
    cases y with
    | setKey key down => exact absurd trivial h
    | _ => rfl
  | _ => cases y <;> rfl

theorem respond_eq_act (hx : x ≠ .cycle) (s : State) : s.respond x = .ok (x.act s) := by
  cases x with
  | cycle => exact absurd rfl hx
  | _ => rfl

theorem respond_act (h : ¬ x.Clashes y) (hw : s.waiting ≠ none → .keypad ∉ x.devices)
    (hi : ∀ i, s.executed? y = some i → i.uses x = false) :
    (x.act s).respond y = (s.respond y).map x.act := by
  by_cases hy : y = .cycle
  · subst hy
    exact step_act hw hi
  · rw [respond_eq_act hy, respond_eq_act hy, act_comm h]
    rfl

/-! ## Runs -/

theorem follow_delay (hx : x ≠ .cycle) (hy : ∀ y ∈ xs, ¬ x.Clashes y)
    (hw : .keypad ∈ x.devices → s.waiting = none)
    (hi : ∀ e ∈ s.history xs, e.instruction.uses x = false) :
    s.follow (x :: (xs ++ ys)) = s.follow (xs ++ x :: ys) := by
  induction xs generalizing s with
  | nil => rfl
  | cons y xs ih =>
    have hexec : ∀ i, s.executed? y = some i → i.uses x = false := by
      intro i he
      exact hi ⟨s, i⟩ (by simp [history, he])
    have hswap : (x.act s).respond y = (s.respond y).map x.act :=
      respond_act (hy y List.mem_cons_self) (fun hwait hk => hwait (hw hk)) hexec
    rw [follow_cons_eq, respond_eq_act hx, List.cons_append, List.cons_append, follow_cons_eq s]
    change (x.act s).follow (y :: (xs ++ ys)) = _
    rw [follow_cons_eq, hswap]
    cases hr : s.respond y with
    | error f => rfl
    | ok t =>
      have hnext : t.follow (x :: (xs ++ ys)) = t.follow (xs ++ x :: ys) := by
        refine ih (fun z hz => hy z (List.mem_cons_of_mem _ hz)) (fun hk => ?_) fun e he => ?_
        · exact waiting_respond (hw hk) hr fun i he => (unused_of_uses (hexec i he) _ hk).1
        · exact hi e (by simp only [history, hr, List.mem_append, he, or_true])
      rw [follow_cons_eq, respond_eq_act hx] at hnext
      exact hnext

/-- Ticks and keys commute with each other and with every cycle that does not use what they change,
faults included. So the moment at which one of them comes makes no difference to a run as long as
no instruction that uses it lies between the two moments. -/
theorem events_commute (s : State) :
    (s.waiting ≠ none ∨ (∀ i, s.due? = some i → i.usesTimers = false) →
      s.tick.step = s.step.map tick) ∧
    (s.waiting = none → (∀ i, s.due? = some i → i.usesKeypad = false) →
      (∀ key down, (s.setKey key down).step = s.step.map (·.setKey key down)) ∧
        s.releaseKeys.step = s.step.map releaseKeys) ∧
    (∀ key down, (s.setKey key down).tick = s.tick.setKey key down) ∧
    s.releaseKeys.tick = s.tick.releaseKeys ∧
    (∀ key key' down down', key ≠ key' →
      (s.setKey key down).setKey key' down' = (s.setKey key' down').setKey key down) ∧
    ∀ x xs ys, x ≠ .cycle → (∀ y ∈ xs, ¬ x.Clashes y) → (x ≠ .tick → s.waiting = none) →
      (∀ e ∈ s.history xs, e.instruction.uses x = false) →
      s.follow (x :: (xs ++ ys)) = s.follow (xs ++ x :: ys) := by
  refine ⟨fun h => ?_, fun hw hi => ?_, fun _ _ => rfl, rfl,
    fun _ _ down down' hne => setKey_comm hne down down' s, ?_⟩
  · refine step_act (x := .tick) (fun _ => by decide) fun i hd => ?_
    rcases h with hw | hi
    · exact absurd (due?_eq_some_iff.mp hd).1 hw
    · exact hi i hd
  · exact ⟨fun key down => step_act (x := .setKey key down) (fun h => absurd hw h) hi,
      step_act (x := .releaseKeys) (fun h => absurd hw h) hi⟩
  · intro x xs ys hx hy hw hi
    refine follow_delay hx hy (fun hk => hw ?_) hi
    rintro rfl
    exact absurd hk (by decide)

theorem events_commute_to_fault :
    ∃ s₀ s, (Machine.ofProgram
        [0x60, 0x05, 0xF0, 0x15, 0x70, 0x01, 0xC1, 0xFF, 0x00, 0xEE]).reset = .ok s₀ ∧
      s₀.follow [.cycle, .cycle] = .ok s ∧ s.delay = 5 ∧ s.due? = some (.addByte 0 1) ∧
      s.tick.step = s.step.map tick ∧
      (s.setKey 3 true).step = s.step.map (·.setKey 3 true) ∧
      s.follow [.tick, .cycle, .setKey 3 true, .cycle, .cycle] = .error .stackUnderflow ∧
      s.follow [.cycle, .setKey 3 true, .cycle, .tick, .cycle] = .error .stackUnderflow := by
  have hrun : ((Machine.ofProgram
      [0x60, 0x05, 0xF0, 0x15, 0x70, 0x01, 0xC1, 0xFF, 0x00, 0xEE]).reset.toOption.any fun s₀ =>
        (s₀.follow [.cycle, .cycle]).toOption.any fun s => s.delay == 5 && s.waiting == none &&
          s.due? == some (.addByte 0 1) &&
          ((s.history [.cycle, .setKey 3 true, .cycle]).all fun e =>
            e.instruction.uses .tick == false) &&
          errorOf? (s.follow [.cycle, .setKey 3 true, .cycle, .tick, .cycle]) ==
            some .stackUnderflow) = true := by
    decide +kernel
  obtain ⟨s₀, hs₀, hrun⟩ := exists_ok_of_any hrun
  obtain ⟨s, hs, hrun⟩ := exists_ok_of_any hrun
  simp only [Bool.and_eq_true, beq_iff_eq, List.all_eq_true] at hrun
  obtain ⟨⟨⟨⟨hdelay, hw⟩, hdue⟩, hfree⟩, hfault⟩ := hrun
  obtain ⟨htick, hkey, -, -, -, hrun⟩ := events_commute s
  have hi : ∀ i, s.due? = some i → i.usesTimers = false ∧ i.usesKeypad = false := by
    intro i hd
    cases hdue.symm.trans hd
    exact ⟨rfl, rfl⟩
  have hend := errorOf?_eq_some_iff.mp hfault
  refine ⟨s₀, s, hs₀, hs, hdelay, hdue, htick (.inr fun i hd => (hi i hd).1),
    (hkey hw fun i hd => (hi i hd).2).1 3 true, ?_, hend⟩
  rw [← hend]
  refine hrun .tick [.cycle, .setKey 3 true, .cycle] [.cycle] (by decide) ?_ (fun h => absurd rfl h)
    hfree
  simp [Stimulus.Clashes]

end State

end Chip8
