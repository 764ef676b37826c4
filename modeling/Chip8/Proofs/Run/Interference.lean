import Chip8.Proofs.Run.Events

/-! # Interference

What the devices hold enters a run only through the instructions that read them.
Two runs of one schedule from states that differ in devices which no instruction
reads stay alike in everything else, and a fault that ends one ends the other.
-/

namespace Chip8

namespace State

variable {s t : State} {x : Stimulus} {xs : List Stimulus} {D : List Device}

theorem DiffersOnly.act (h : DiffersOnly D s t) (x : Stimulus) :
    DiffersOnly D (x.act s) (x.act t) := by
  obtain ⟨hdiffers, hcongr⟩ := moves_act x
  exact ⟨(hdiffers s).alike.symm.trans (h.alike.trans (hdiffers t).alike),
    fun d hd => hcongr (h.agree d hd)⟩

theorem DiffersOnly.respond (h : DiffersOnly D s t) (hw : .keypad ∈ D → s.waiting = none)
    (hr : ∀ i, s.executed? x = some i → ∀ d ∈ D, i.reads d = false) :
    InStep (DiffersOnly D) (s.respond x) (t.respond x) := by
  by_cases hx : x = .cycle
  · subst hx
    refine InStep.step h.alike.waiting_eq h.alike.peek_eq (fun hwait => ?_) fun i hi => ?_
    · exact h.poll fun hk => hwait (hw hk)
    · exact ⟨h.alike.fault?_eq i, h.after (hr i hi)⟩
  · rw [respond_eq_act hx, respond_eq_act hx]
    exact .ok (h.act x)

theorem DiffersOnly.follow (h : DiffersOnly D s t) (hw : .keypad ∈ D → s.waiting = none)
    (hr : ∀ e ∈ s.history xs, ∀ d ∈ D, e.instruction.reads d = false) :
    InStep (DiffersOnly D) (s.follow xs) (t.follow xs) := by
  -- while the keypads may differ no wait can begin, since what begins one reads the keypad
  have hrun : InStep (fun s t => DiffersOnly D s t ∧ (.keypad ∈ D → s.waiting = none))
      (s.follow xs) (t.follow xs) := by
    refine InStep.follow (P := fun e => ∀ d ∈ D, e.instruction.reads d = false) ?_ ⟨h, hw⟩ hr
    rintro s t x ⟨h, hw⟩ hr
    refine (h.respond hw hr).imp fun u v hu huv => ⟨huv, fun hk => ?_⟩
    exact waiting_respond (hw hk) hu fun i hi => hr i hi _ hk
  exact hrun.imp fun _ _ _ huv => huv.1

theorem reads_sound (i : Instruction) : i.reads (.timer .sound) = false := by
  cases i <;> rfl

theorem differsOnly_sound_iff :
    DiffersOnly [.timer .sound] s t ↔ ∃ sound, t = { s with sound } := by
  constructor
  · rintro ⟨⟨delay, sound, keypad, generator, rfl⟩, hagree⟩
    obtain rfl : s.delay = delay := hagree (.timer .delay) (by decide)
    obtain rfl : s.keypad = keypad := hagree .keypad (by decide)
    obtain rfl : s.generator = generator := hagree .generator (by decide)
    exact ⟨sound, rfl⟩
  · rintro ⟨sound, rfl⟩
    refine ⟨⟨_, _, _, _, rfl⟩, fun d hd => ?_⟩
    cases d with
    | timer τ =>
      cases τ with
      | delay => rfl
      | sound => exact absurd (List.mem_singleton_self _) hd
    | keypad | generator => rfl

/-- The world outside does not interfere. What the sound timer holds never shows in the rest of a
run, and what any device holds shows only once an instruction reads one: until then two runs of one
schedule stay alike move by move, and a fault that ends one ends the other. -/
theorem devices_do_not_interfere (s : State) (xs : List Stimulus) :
    (∀ sound, InStep (fun u v => ∃ sound, v = { u with sound })
      (s.follow xs) ({ s with sound }.follow xs)) ∧
    (s.waiting = none → (∀ e ∈ s.history xs, ∀ d, e.instruction.reads d = false) →
      ∀ t, Alike s t → ∀ ys, ys <+: xs → InStep Alike (s.follow ys) (t.follow ys)) := by
  constructor
  · intro sound
    have hs : DiffersOnly [.timer .sound] s { s with sound } :=
      differsOnly_sound_iff.mpr ⟨sound, rfl⟩
    refine (hs.follow (fun hk => absurd hk (by decide)) fun e _ d hd => ?_).imp
      fun u v _ huv => differsOnly_sound_iff.mp huv
    obtain rfl : d = .timer .sound := List.mem_singleton.mp hd
    exact reads_sound e.instruction
  · rintro hw hr t h ys ⟨zs, rfl⟩
    have hall : DiffersOnly Device.all s t := ⟨h, fun d hd => absurd d.mem_all hd⟩
    refine (hall.follow (fun _ => hw) fun e he d _ => ?_).imp fun _ _ _ huv => huv.alike
    exact hr e ((history_mono s ys zs).subset he) d

def drawGlyph : List Stimulus := [.tick, .cycle, .cycle, .tick, .cycle, .cycle, .cycle]

def drawThenReturn : List Stimulus := drawGlyph ++ [.setKey 4 true, .cycle]

theorem devices_do_not_interfere_to_fault :
    ∃ s t u v, (Machine.ofProgram
        [0x60, 0x07, 0xF0, 0x15, 0xF0, 0x18, 0xA0, 0x50, 0xD0, 0x05, 0x00, 0xEE]).reset = .ok s ∧
      t = { s with
        delay := 9, sound := 3, keypad := .replicate 16 true, generator := s.generator.split.1 } ∧
      s.follow drawGlyph = .ok u ∧ t.follow drawGlyph = .ok v ∧
      u.screen ≠ .blank ∧ v.screen = u.screen ∧
      t.follow drawThenReturn = .error .stackUnderflow ∧
      { s with sound := 3 }.follow drawThenReturn = .error .stackUnderflow := by
  have hrun : ((Machine.ofProgram
      [0x60, 0x07, 0xF0, 0x15, 0xF0, 0x18, 0xA0, 0x50, 0xD0, 0x05, 0x00, 0xEE]).reset.toOption.any
        fun s => s.waiting == none && ((s.history drawThenReturn).all fun e =>
            Device.all.all fun d => e.instruction.reads d == false) &&
          errorOf? (s.follow drawThenReturn) == some .stackUnderflow &&
          (s.follow drawGlyph).toOption.any fun u => u.screen != .blank) = true := by
    decide +kernel
  obtain ⟨s, hs, hrun⟩ := exists_ok_of_any hrun
  simp only [Bool.and_eq_true, beq_iff_eq, List.all_eq_true] at hrun
  obtain ⟨⟨⟨hw, hreads⟩, hfault⟩, hdrawn⟩ := hrun
  obtain ⟨u, hu, hscreen⟩ := exists_ok_of_any hdrawn
  have hend := errorOf?_eq_some_iff.mp hfault
  obtain ⟨hsound, hboth⟩ := devices_do_not_interfere s drawThenReturn
  have hsound' := hsound 3
  have hdevices := hboth hw (fun e he d => hreads e he d d.mem_all) { s with
      delay := 9, sound := 3, keypad := .replicate 16 true, generator := s.generator.split.1 }
    ⟨_, _, _, _, rfl⟩
  have hlast := hdevices drawThenReturn List.prefix_rfl
  have hfirst := hdevices drawGlyph (List.prefix_append _ _)
  rw [hend] at hsound' hlast
  rw [hu] at hfirst
  obtain ⟨v, hv, huv⟩ := hfirst.exists_ok
  refine ⟨s, _, u, v, hs, rfl, hu, hv, bne_iff_ne.mp hscreen, ?_, hlast.eq_error, hsound'.eq_error⟩
  obtain ⟨_, _, _, _, rfl⟩ := huv
  rfl

end State

end Chip8
