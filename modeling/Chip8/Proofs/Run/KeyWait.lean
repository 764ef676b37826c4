import Chip8.Proofs.Run.Coherence

/-! # Waiting for a key

An instruction that waits for a key can find one down at once, or it leaves the
machine waiting and a later cycle finds one. While no key is down such a cycle
changes nothing, and the ticks and keys in between act on a waiting machine as on
any other. So both ways end in the same state.
-/

namespace Chip8.State

variable {s t u : State} {r : Register} {key : Key} {x : Stimulus} {xs : List Stimulus}

/-! ## The lowest key -/

def Silent (s : State) : Prop := ∀ key : Key, s.keypad.get key = false

instance (s : State) : Decidable s.Silent :=
  inferInstanceAs (Decidable (∀ key : Key, s.keypad.get key = false))

def Lowest (s : State) (key : Key) : Prop :=
  s.keypad.get key = true ∧ ∀ j < key, s.keypad.get j = false

theorem firstKey?_eq_none_iff : s.firstKey? = none ↔ s.Silent := by
  change s.firstKey? = none ↔ ∀ key : Key, s.keypad[key] = false
  simp [firstKey?]

theorem lowest_of_firstKey? (h : s.firstKey? = some key) : s.Lowest key := by
  obtain ⟨hkey, as, bs, hall, hup⟩ := List.find?_eq_some_iff_append.mp h
  refine ⟨hkey, fun j hj => ?_⟩
  have hsorted : (as ++ key :: bs).Pairwise (· < ·) := hall ▸ List.pairwise_lt_finRange 16
  have hmem : j ∈ as ++ key :: bs := hall ▸ List.mem_finRange j
  rcases List.mem_append.mp hmem with hj' | hj'
  · have hjup : s.keypad[j] = false := by simpa using hup j hj'
    exact hjup
  · have hbs := (List.pairwise_append.mp hsorted).2.1
    rcases List.mem_cons.mp hj' with rfl | hj'
    · exact absurd hj (Fin.lt_irrefl _)
    · exact absurd hj (Fin.lt_asymm (List.rel_of_pairwise_cons hbs hj'))

/-! ## Machines that wait -/

/-- The state behind a waiting instruction that found no key down. -/
def armed (s : State) (r : Register) : State := { s with pc := s.pc + 2, waiting := some r }

/-- The state behind a waiting instruction that took a key. -/
def served (s : State) (r : Register) (key : Key) : State :=
  { s.setReg r (UInt8.ofNat key) with pc := s.pc + 2, waiting := none }

theorem step_waitKey_of_silent (hd : s.due? = some (.waitKey r)) (hk : s.Silent) :
    s.step = .ok (s.armed r) := by
  obtain ⟨hw, hp⟩ := due?_eq_some_iff.mp hd
  have hnone : s.advance.firstKey? = none := firstKey?_eq_none_iff.mpr hk
  rw [step_of_idle hw, hp]
  simp only [Instruction.execute, hnone]
  rfl

theorem step_waitKey_of_key (hd : s.due? = some (.waitKey r)) (hk : s.firstKey? = some key) :
    s.step = .ok (s.served r key) := by
  obtain ⟨hw, hp⟩ := due?_eq_some_iff.mp hd
  have hsome : s.advance.firstKey? = some key := hk
  rw [step_of_idle hw, hp]
  simp only [Instruction.execute, hsome, served, ← hw]
  rfl

theorem step_armed_of_silent (hk : s.Silent) : (s.armed r).step = .ok (s.armed r) := by
  have hnone : (s.armed r).firstKey? = none := firstKey?_eq_none_iff.mpr hk
  rw [step_of_waiting (by simp [armed]), poll, hnone]
  rfl

theorem step_armed_of_key (hk : s.firstKey? = some key) :
    (s.armed r).step = .ok (s.served r key) := by
  have hsome : (s.armed r).firstKey? = some key := hk
  rw [step_of_waiting (by simp [armed]), poll, hsome]
  rfl

/-! ## Schedules -/

theorem forall_cycle_head {P : State → Prop}
    (h : ∀ ys v, ys ++ [.cycle] <+: .cycle :: xs → s.follow ys = .ok v → P v) : P s :=
  h [] s (List.cons_prefix_cons.mpr ⟨rfl, List.nil_prefix⟩) rfl

theorem forall_cycle_tail {P : State → Prop} (hx : s.respond x = .ok u)
    (h : ∀ ys v, ys ++ [.cycle] <+: x :: xs → s.follow ys = .ok v → P v) :
    ∀ ys v, ys ++ [.cycle] <+: xs → u.follow ys = .ok v → P v := by
  intro ys v hys hv
  exact h (x :: ys) v (List.cons_prefix_cons.mpr ⟨rfl, hys⟩) (follow_cons.mpr ⟨u, hx, hv⟩)

theorem respond_event (hx : x ≠ .cycle) (s : State) (r : Register) :
    ∃ t, s.respond x = .ok t ∧ (s.armed r).respond x = .ok (t.armed r) ∧
      t.pc = s.pc ∧ t.due? = s.due? := by
  cases x with
  | cycle => exact absurd rfl hx
  | _ => exact ⟨_, rfl, rfl, rfl, rfl⟩

/-- The cycles of a waiting machine that find no key down can be left out. -/
theorem follow_armed (hq : ∀ ys v, ys ++ [.cycle] <+: xs → (s.armed r).follow ys = .ok v →
      v.Silent) :
    ∃ t, s.follow (xs.filter (· ≠ .cycle)) = .ok t ∧ (s.armed r).follow xs = .ok (t.armed r) ∧
      t.pc = s.pc ∧ t.due? = s.due? := by
  induction xs generalizing s with
  | nil => exact ⟨s, rfl, rfl, rfl, rfl⟩
  | cons x xs ih =>
    by_cases hx : x = .cycle
    · subst hx
      have hs : (s.armed r).Silent := forall_cycle_head hq
      have hstep : (s.armed r).respond .cycle = .ok (s.armed r) := step_armed_of_silent hs
      obtain ⟨t, ht, ha, hrest⟩ := ih (forall_cycle_tail hstep hq)
      exact ⟨t, ht, follow_cons.mpr ⟨_, hstep, ha⟩, hrest⟩
    · obtain ⟨u, hu, hua, hpc, hdue⟩ := respond_event hx s r
      obtain ⟨t, ht, ha, hpc', hdue'⟩ := ih (forall_cycle_tail hua hq)
      refine ⟨t, ?_, follow_cons.mpr ⟨_, hua, ha⟩, hpc'.trans hpc, hdue'.trans hdue⟩
      rw [List.filter_cons_of_pos (by simpa using hx)]
      exact follow_cons.mpr ⟨u, hu, ht⟩

/-- A machine that waits through any ticks and keys and then finds a key ends where it would have
ended if it had come to wait when that key was down already. Its cycles change nothing before. -/
theorem waits_agree (hw : s.waiting = none) (hp : s.pc.toNat ≤ 0xFFE)
    (hword : s.memory.word s.pc.toNat = UInt16.ofNat (0xF00A + 0x100 * r.val))
    (hq : ∀ ys v, ys ++ [.cycle] <+: .cycle :: xs → s.follow ys = .ok v → v.Silent) :
    ∃ s₁ u t, s₁ = { s with pc := s.pc + 2, waiting := some r } ∧ s.step = .ok s₁ ∧
      (∀ ys v, ys ++ [.cycle] <+: xs → s₁.follow ys = .ok v → v.step = .ok v) ∧
      s₁.follow xs = .ok u ∧ s.follow (xs.filter (· ≠ .cycle)) = .ok t ∧
      (¬ u.Silent → ∃ key v, u.Lowest key ∧ u.step = .ok v ∧ t.step = .ok v ∧
        v = { t with
          registers := t.registers.set r (UInt8.ofNat key), pc := s.pc + 2, waiting := none }) := by
  have hdue : s.due? = some (.waitKey r) :=
    due?_eq_some_iff.mpr ⟨hw, peek_eq_ok_iff.mpr ⟨hp, hword.trans (word_waitKey r).symm⟩⟩
  have hsilent : s.Silent := forall_cycle_head hq
  have hstep : s.respond .cycle = .ok (s.armed r) := step_waitKey_of_silent hdue hsilent
  have hquiet : ∀ ys v, ys ++ [.cycle] <+: xs → (s.armed r).follow ys = .ok v → v.Silent :=
    forall_cycle_tail hstep hq
  obtain ⟨t, ht, ha, hpc, hdue'⟩ := follow_armed hquiet
  refine ⟨s.armed r, t.armed r, t, rfl, hstep, fun ys v hys hv => ?_, ha, ht, fun hdown => ?_⟩
  · have hsub : ys <+: xs := (List.prefix_append _ _).trans hys
    obtain ⟨w, -, hwait, -⟩ := follow_armed fun zs z hzs => hquiet zs z (hzs.trans hsub)
    obtain rfl : w.armed r = v := Except.ok.inj (hwait.symm.trans hv)
    have hsilent' : (w.armed r).Silent := hquiet ys _ hys hv
    exact step_armed_of_silent (s := w) hsilent'
  · cases hk : t.firstKey? with
    | none => exact absurd (firstKey?_eq_none_iff.mp hk) hdown
    | some key =>
      refine ⟨key, t.served r key, lowest_of_firstKey? hk, step_armed_of_key hk,
        step_waitKey_of_key (hdue'.trans hdue) hk, ?_⟩
      rw [served, hpc]
      rfl

def latePresses : List Stimulus :=
  [.tick, .cycle, .setKey 9 true, .setKey 9 false, .cycle, .setKey 7 true, .setKey 5 true]

theorem waits_agree_late :
    ∃ s s₁ u t v, (Machine.ofProgram [0xF3, 0x0A]).reset = .ok s ∧ s.step = .ok s₁ ∧
      s₁.follow latePresses = .ok u ∧ s.follow (latePresses.filter (· ≠ .cycle)) = .ok t ∧
      u.step = .ok v ∧ t.step = .ok v ∧ v.reg 3 = 5 := by
  have hrun : ((Machine.ofProgram [0xF3, 0x0A]).reset.toOption.any fun s =>
      s.waiting == none && s.pc == 0x200 && s.memory.word 0x200 == 0xF30A &&
        ((List.range 8).all fun n => (Stimulus.cycle :: latePresses)[n]? != some .cycle ||
          (s.follow ((Stimulus.cycle :: latePresses).take n)).toOption.all fun v =>
            decide v.Silent) &&
        (s.follow (.cycle :: latePresses)).toOption.any fun u =>
          decide (¬ u.Silent) && u.step.toOption.any fun v => v.reg 3 == 5) = true := by
    decide +kernel
  obtain ⟨s, hs, hrun⟩ := exists_ok_of_any hrun
  simp only [Bool.and_eq_true, beq_iff_eq] at hrun
  obtain ⟨⟨⟨⟨hw, hpc⟩, hword⟩, hquiet⟩, hend⟩ := hrun
  obtain ⟨u, hu, hend⟩ := exists_ok_of_any hend
  simp only [Bool.and_eq_true, decide_eq_true_eq] at hend
  obtain ⟨hdown, hend⟩ := hend
  obtain ⟨v, hv, hreg⟩ := exists_ok_of_any hend
  have hq : ∀ ys w, ys ++ [.cycle] <+: .cycle :: latePresses → s.follow ys = .ok w →
      w.Silent := by
    intro ys w hys hw'
    have htake : (Stimulus.cycle :: latePresses).take ys.length = ys :=
      (List.prefix_iff_eq_take.mp ((List.prefix_append _ _).trans hys)).symm
    have hget : (Stimulus.cycle :: latePresses)[ys.length]? = some .cycle := by
      obtain ⟨zs, hzs⟩ := hys
      simp [← hzs]
    have hlt : ys.length < 8 := by
      have hlen := hys.length_le
      rw [List.length_append] at hlen
      exact hlen
    have hcheck := List.all_eq_true.mp hquiet ys.length (List.mem_range.mpr hlt)
    simpa [hget, htake, hw', Except.toOption] using hcheck
  obtain ⟨s₁, u', t, -, hstep, -, hu', ht, hlast⟩ :=
    waits_agree (r := 3) hw (by rw [hpc]; decide) (by rw [hpc]; exact hword) hq
  obtain ⟨s₂, hstep', hu⟩ := follow_cons.mp hu
  obtain rfl : s₁ = s₂ := Except.ok.inj (hstep.symm.trans hstep')
  obtain rfl : u' = u := Except.ok.inj (hu'.symm.trans hu)
  obtain ⟨key, v', -, hv', hv'', -⟩ := hlast hdown
  obtain rfl : v' = v := Except.ok.inj (hv'.symm.trans hv)
  exact ⟨s, s₁, u', t, v', hs, hstep, hu', ht, hv, hv'', by simpa using hreg⟩

end Chip8.State
