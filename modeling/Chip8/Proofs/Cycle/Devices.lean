import Chip8.Proofs.Cycle.Step

/-! # Devices

The timers, the keypad and the generator are the devices of a machine. A few
instructions read one of them and a few write one. Whatever an instruction does
not read is nothing to what it makes of the rest of the state, and no fault
depends on a device.
-/

namespace Chip8

inductive Timer where
  | delay | sound
  deriving DecidableEq

namespace Timer

def value : Timer → State → UInt8
  | delay, s => s.delay
  | sound, s => s.sound

def source? : Timer → Instruction → Option Register
  | delay, .setDelay x | sound, .setSound x => some x
  | _, _ => none

theorem value_tick (τ : Timer) (s : State) : τ.value s.tick = State.countDown (τ.value s) := by
  cases τ <;> rfl

end Timer

/-- A part of the machine that the world outside shares. -/
inductive Device where
  | timer (τ : Timer)
  | keypad
  | generator
  deriving DecidableEq

namespace Device

def all : List Device := [keypad, timer .delay, timer .sound, generator]

/-- Two states have the same in a device. -/
def Agree : Device → State → State → Prop
  | timer τ, s, t => τ.value s = τ.value t
  | keypad, s, t => s.keypad = t.keypad
  | generator, s, t => s.generator = t.generator

variable {d : Device} {s t u : State}

theorem agree_refl (d : Device) (s : State) : d.Agree s s := by
  cases d <;> rfl

theorem Agree.symm (h : d.Agree s t) : d.Agree t s := by
  cases d <;> exact Eq.symm h

theorem Agree.trans (h : d.Agree s t) (h' : d.Agree t u) : d.Agree s u := by
  cases d <;> exact Eq.trans h h'

theorem mem_all (d : Device) : d ∈ all := by
  cases d with
  | timer τ => cases τ <;> decide
  | keypad | generator => decide

end Device

namespace Instruction

def reads : Instruction → Device → Bool
  | getDelay _, .timer .delay => true
  | skipKey _, .keypad | skipNotKey _, .keypad | waitKey _, .keypad => true
  | random _ _, .generator => true
  | _, _ => false

def writes (i : Instruction) : Device → Bool
  | .timer τ => (τ.source? i).isSome
  | .keypad => false
  | .generator => match i with
    | random _ _ => true
    | _ => false

end Instruction

namespace State

variable {s t u : State} {i : Instruction} {d : Device} {τ : Timer} {D : List Device}

/-! ## States that differ in devices -/

/-- The states are the same but for what the devices hold. -/
def Alike (s t : State) : Prop :=
  ∃ delay sound keypad generator, t = { s with delay, sound, keypad, generator }

theorem Alike.symm (h : Alike s t) : Alike t s := by
  obtain ⟨_, _, _, _, rfl⟩ := h
  exact ⟨s.delay, s.sound, s.keypad, s.generator, rfl⟩

theorem Alike.trans (h : Alike s t) (h' : Alike t u) : Alike s u := by
  obtain ⟨_, _, _, _, rfl⟩ := h
  obtain ⟨_, _, _, _, rfl⟩ := h'
  exact ⟨_, _, _, _, rfl⟩

theorem Alike.eq (h : Alike s t) (hd : ∀ d : Device, d.Agree s t) : s = t := by
  obtain ⟨delay, sound, keypad, generator, rfl⟩ := h
  obtain rfl : s.delay = delay := hd (.timer .delay)
  obtain rfl : s.sound = sound := hd (.timer .sound)
  obtain rfl : s.keypad = keypad := hd .keypad
  obtain rfl : s.generator = generator := hd .generator
  rfl

theorem Alike.waiting_eq (h : Alike s t) : t.waiting = s.waiting := by
  obtain ⟨_, _, _, _, rfl⟩ := h
  rfl

theorem Alike.peek_eq (h : Alike s t) : t.peek = s.peek := by
  obtain ⟨_, _, _, _, rfl⟩ := h
  rfl

/-- The states are the same but for what some devices hold. -/
structure DiffersOnly (D : List Device) (s t : State) : Prop where
  alike : Alike s t
  agree : ∀ d, d ∉ D → d.Agree s t

theorem DiffersOnly.symm (h : DiffersOnly D s t) : DiffersOnly D t s :=
  ⟨h.alike.symm, fun d hd => (h.agree d hd).symm⟩

theorem DiffersOnly.trans (h : DiffersOnly D s t) (h' : DiffersOnly D t u) : DiffersOnly D s u :=
  ⟨h.alike.trans h'.alike, fun d hd => (h.agree d hd).trans (h'.agree d hd)⟩

/-! ## What an instruction reads -/

theorem Alike.fault?_eq (h : Alike s t) (i : Instruction) :
    i.fault? t.advance = i.fault? s.advance := by
  obtain ⟨_, _, _, _, rfl⟩ := h
  cases i <;> rfl

theorem Alike.step_eq_error {f : Fault} (h : Alike s t) (hf : s.step = .error f) :
    t.step = .error f := by
  rw [step_eq_error_iff] at hf ⊢
  simpa only [h.waiting_eq, h.peek_eq, h.fault?_eq] using hf

/-- An instruction makes the same of two states that agree on what it reads. -/
theorem Alike.after (h : Alike s t) (hr : ∀ d, i.reads d = true → d.Agree s t) :
    Alike (i.after s.advance) (i.after t.advance) := by
  obtain ⟨delay, sound, keypad, generator, ht⟩ := h
  refine ⟨i.delayAfter t.advance, i.soundAfter t.advance, keypad, i.generatorAfter t.advance, ?_⟩
  have hregisters : t.advance.registers = s.advance.registers := by rw [ht]; rfl
  have hdialect : t.advance.dialect = s.advance.dialect := by rw [ht]; rfl
  have hc := compute_congr hregisters hdialect
  subst ht
  cases i with
  | arith op x y =>
    simp only [Instruction.after, Instruction.registersAfter, hc]
    rfl
  | getDelay x =>
    obtain rfl : s.delay = delay := hr (.timer .delay) rfl
    rfl
  | skipKey x | skipNotKey x | waitKey x =>
    obtain rfl : s.keypad = keypad := hr .keypad rfl
    rfl
  | random x mask =>
    obtain rfl : s.generator = generator := hr .generator rfl
    rfl
  | _ => rfl

/-! ## What an instruction writes -/

theorem value_after (τ : Timer) (i : Instruction) (s : State) :
    τ.value (i.after s.advance) = ((τ.source? i).map s.reg).getD (τ.value s) := by
  cases τ with
  | delay =>
    rw [Timer.value, Instruction.after_delay]
    cases i <;> rfl
  | sound =>
    rw [Timer.value, Instruction.after_sound]
    cases i <;> rfl

theorem agree_after (h : i.writes d = false) : d.Agree s (i.after s.advance) := by
  cases d with
  | timer τ =>
    have hn : τ.source? i = none := by simpa [Instruction.writes] using h
    change τ.value s = τ.value (i.after s.advance)
    rw [value_after, hn]
    rfl
  | keypad => rfl
  | generator =>
    rw [Device.Agree, Instruction.after_generator]
    cases i with
    | random => cases h
    | _ => rfl

theorem Alike.agree_after (h : Alike s t) (hr : ∀ d, i.reads d = true → d.Agree s t)
    (hw : i.writes d = true) : d.Agree (i.after s.advance) (i.after t.advance) := by
  cases d with
  | timer τ =>
    obtain ⟨x, hx⟩ := Option.isSome_iff_exists.mp hw
    obtain ⟨_, _, _, _, rfl⟩ := h
    change τ.value _ = τ.value _
    rw [value_after, value_after, hx]
    rfl
  | keypad => cases hw
  | generator =>
    cases i with
    | random x mask => exact congrArg (fun g : Generator => g.next.2) (hr .generator rfl)
    | _ => cases hw

theorem DiffersOnly.after (h : DiffersOnly D s t) (hr : ∀ d ∈ D, i.reads d = false) :
    DiffersOnly D (i.after s.advance) (i.after t.advance) := by
  have hread : ∀ d, i.reads d = true → d.Agree s t := by
    intro d hd
    refine h.agree d fun hmem => ?_
    rw [hr d hmem] at hd
    cases hd
  refine ⟨h.alike.after hread, fun d hd => ?_⟩
  cases hw : i.writes d with
  | true => exact h.alike.agree_after hread hw
  | false => exact (agree_after hw).symm.trans ((h.agree d hd).trans (agree_after hw))

/-! ## What waits and polls read and write -/

theorem waiting_after (h : i.reads .keypad = false) :
    (i.after s.advance).waiting = s.waiting := by
  rw [Instruction.after_waiting]
  cases i with
  | waitKey x => cases h
  | _ => rfl

theorem waiting_respond {x : Stimulus} (hw : s.waiting = none) (h : s.respond x = .ok t)
    (hi : ∀ i, s.executed? x = some i → i.reads .keypad = false) : t.waiting = none := by
  rcases respond_cases h with ⟨i, he, -, rfl⟩ | ⟨-, hsame⟩
  · rw [waiting_after (hi i he), hw]
  · exact hsame.waiting.elim (·.trans hw) id

theorem agree_poll (d : Device) (s : State) : d.Agree s s.poll := by
  unfold poll
  split
  · cases d with
    | timer τ => cases τ <;> rfl
    | keypad | generator => rfl
  · exact d.agree_refl s

theorem Alike.poll (h : Alike s t) (hk : s.keypad = t.keypad) : Alike s.poll t.poll := by
  have hfirst : t.firstKey? = s.firstKey? := by
    simp only [firstKey?, hk]
  unfold State.poll
  rw [h.waiting_eq, hfirst]
  obtain ⟨_, _, _, _, rfl⟩ := h
  split
  · exact ⟨_, _, _, _, rfl⟩
  · exact ⟨_, _, _, _, rfl⟩

theorem DiffersOnly.poll (h : DiffersOnly D s t) (hk : .keypad ∉ D) :
    DiffersOnly D s.poll t.poll :=
  ⟨h.alike.poll (h.agree .keypad hk),
    fun d hd => (agree_poll d s).symm.trans ((h.agree d hd).trans (agree_poll d t))⟩

end State

end Chip8
