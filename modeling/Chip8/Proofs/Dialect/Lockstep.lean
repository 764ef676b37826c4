import Chip8.Proofs.Run.Coherence
import Chip8.Proofs.Run.Pair
import Chip8.Proofs.Screen.Mask

/-! # Dialects in lockstep

A dialect gives another meaning to a few instructions only, and to some of them
only with certain operands. Two runs of the same schedule from states that differ
in nothing but the dialect stay in lockstep, faults included, until the first of
them executes such an instruction.
-/

namespace Chip8

/-- The same state under another dialect. -/
@[simps] def State.under (s : State) (d : Dialect) : State := { s with dialect := d }

namespace Execution

/-- The dialect `d` may give the execution another effect than the one it happens under does. -/
def Sensitive (e : Execution) (d : Dialect) : Prop :=
  match e.instruction with
  | .arith op x y =>
    ((op = .shiftRight ∨ op = .shiftLeft) ∧ x ≠ y ∧
        e.before.dialect.shiftsInPlace ≠ d.shiftsInPlace) ∨
      ((op = .or ∨ op = .and ∨ op = .xor) ∧
        e.before.dialect.logicClearsFlag ≠ d.logicClearsFlag)
  | .storeRegisters _ | .loadRegisters _ => e.before.dialect.keepsIndex ≠ d.keepsIndex
  | .jumpOffset target => target.val / 0x100 ≠ 0 ∧ e.before.dialect.jumpsByX ≠ d.jumpsByX
  | .draw x y height =>
    (64 < (e.before.reg x).toNat % 64 + 8 ∨ 32 < (e.before.reg y).toNat % 32 + height.val) ∧
      e.before.dialect.clipsSprites ≠ d.clipsSprites
  | _ => False

instance (e : Execution) (d : Dialect) : Decidable (e.Sensitive d) := by
  unfold Sensitive
  split <;> infer_instance

theorem not_sensitive_of_rate (e : Execution) (frequency : Setting) :
    ¬ e.Sensitive { e.before.dialect with frequency } := by
  obtain ⟨s, i⟩ := e
  cases i <;> simp [Sensitive, Dialect.shiftsInPlace, Dialect.logicClearsFlag, Dialect.keepsIndex,
    Dialect.jumpsByX, Dialect.clipsSprites]

end Execution

namespace State

variable {s t : State} {d : Dialect} {i : Instruction} {x : Stimulus} {xs ys : List Stimulus}

/-! ## One instruction -/

theorem offsetTarget_under {target : Address}
    (h : ¬ Execution.Sensitive ⟨s, .jumpOffset target⟩ d) :
    (s.under d).offsetTarget target = s.offsetTarget target := by
  have hreg : (s.under d).offsetRegister target = s.offsetRegister target := by
    by_cases hx : target.val / 0x100 = 0
    · have hz : Fin.ofNat 16 (target.val / 256) = 0 := by rw [hx]; rfl
      simp only [offsetRegister, hz, ite_self]
    · have hd : s.dialect.jumpsByX = d.jumpsByX := Decidable.of_not_not fun hne => h ⟨hx, hne⟩
      simp only [offsetRegister, under_dialect, hd]
  simp only [offsetTarget, hreg]
  rfl

theorem movedIndex_under {r : Register} (h : s.dialect.keepsIndex = d.keepsIndex) :
    (s.under d).movedIndex r = s.movedIndex r := by
  simp only [movedIndex, under_dialect, under_index, h]

theorem drawn_under {a b : Register} {height : Fin 16}
    (h : ¬ Execution.Sensitive ⟨s, .draw a b height⟩ d) :
    (s.under d).drawn a b height = s.drawn a b height := by
  have hlen : (s.window height.val).length = height.val := Memory.length_slice ..
  have hmask : Sprite.mask d.clipsSprites (s.reg a).toNat (s.reg b).toNat (s.window height.val) =
      Sprite.mask s.dialect.clipsSprites (s.reg a).toNat (s.reg b).toNat
        (s.window height.val) := by
    by_cases hin : 64 < (s.reg a).toNat % 64 + 8 ∨ 32 < (s.reg b).toNat % 32 + height.val
    · have hd : s.dialect.clipsSprites = d.clipsSprites :=
        Decidable.of_not_not fun hne => h ⟨hin, hne⟩
      rw [hd]
    · have he : Sprite.mask true (s.reg a).toNat (s.reg b).toNat (s.window height.val) =
          Sprite.mask false (s.reg a).toNat (s.reg b).toNat (s.window height.val) :=
        Sprite.mask_clip_eq (by omega) (by omega)
      cases d.clipsSprites <;> cases s.dialect.clipsSprites <;> simp [he]
  unfold drawn Screen.draw
  exact congrArg (fun mask => (s.screen.flip mask, s.screen.meets mask)) hmask

theorem compute_under {op : Arith} {a b : Register}
    (h : ¬ Execution.Sensitive ⟨s, .arith op a b⟩ d) :
    ((s.under d).compute op a b).registers = (s.compute op a b).registers := by
  obtain ⟨hshift, hlogic⟩ := not_or.mp h
  have hvalue : (if op.shifts && !d.shiftsInPlace then s.reg b else s.reg a) =
      if op.shifts && !s.dialect.shiftsInPlace then s.reg b else s.reg a := by
    by_cases hab : a = b
    · simp only [hab, ite_self]
    · by_cases hop : op = .shiftRight ∨ op = .shiftLeft
      · have hd : s.dialect.shiftsInPlace = d.shiftsInPlace :=
          Decidable.of_not_not fun hne => hshift ⟨hop, hab, hne⟩
        rw [hd]
      · have hs : op.shifts = false := by cases op <;> simp_all [Arith.shifts]
        simp only [hs, Bool.false_and]
  have hflag : (op.isLogic && d.logicClearsFlag) = (op.isLogic && s.dialect.logicClearsFlag) := by
    by_cases hop : op = .or ∨ op = .and ∨ op = .xor
    · have hd : s.dialect.logicClearsFlag = d.logicClearsFlag :=
        Decidable.of_not_not fun hne => hlogic ⟨hop, hne⟩
      rw [hd]
    · have hs : op.isLogic = false := by cases op <;> simp_all [Arith.isLogic]
      simp only [hs, Bool.false_and]
  have hreg : ∀ r, (s.under d).reg r = s.reg r := fun _ => rfl
  simp only [compute, hreg, under_dialect, hvalue, hflag]
  split <;> rfl

theorem fault?_under (h : ¬ Execution.Sensitive ⟨s, i⟩ d) :
    i.fault? (s.under d).advance = i.fault? s.advance := by
  cases i with
  | jumpOffset target =>
    have ht : (s.under d).advance.offsetTarget target = s.advance.offsetTarget target :=
      offsetTarget_under h
    simp only [Instruction.fault?, ht]
  | _ => rfl

theorem after_under (h : ¬ Execution.Sensitive ⟨s, i⟩ d) :
    i.after (s.under d).advance = (i.after s.advance).under d := by
  cases i with
  | arith op a b =>
    exact congrArg (fun registers => { (Instruction.arith op a b).after s.advance with
      registers, dialect := d }) (compute_under (s := s.advance) h)
  | jumpOffset target =>
    exact congrArg (fun target' => { (Instruction.jumpOffset target).after s.advance with
      pc := UInt16.ofNat target', dialect := d }) (offsetTarget_under (s := s.advance) h)
  | draw a b height =>
    exact congrArg (fun drawing => { (Instruction.draw a b height).after s.advance with
      screen := drawing.1, registers := (s.setFlag drawing.2.toUInt8).registers, dialect := d })
      (drawn_under (s := s.advance) h)
  | storeRegisters r =>
    exact congrArg (fun index => { (Instruction.storeRegisters r).after s.advance with
      index, dialect := d }) (movedIndex_under (s := s.advance) (Decidable.of_not_not h))
  | loadRegisters r =>
    exact congrArg (fun index => { (Instruction.loadRegisters r).after s.advance with
      index, dialect := d }) (movedIndex_under (s := s.advance) (Decidable.of_not_not h))
  | _ => rfl

theorem poll_under (s : State) (d : Dialect) : (s.under d).poll = s.poll.under d := by
  have hk : (s.under d).firstKey? = s.firstKey? := rfl
  unfold poll
  rw [hk, under_waiting]
  cases s.waiting <;> cases s.firstKey? <;> rfl

/-! ## Runs -/

/-- A move has the same effect under another dialect, unless it executes a sensitive instruction. -/
theorem respond_under (h : ∀ i, s.executed? x = some i → ¬ Execution.Sensitive ⟨s, i⟩ d) :
    InStep (fun s t => t = s.under d) (s.respond x) ((s.under d).respond x) := by
  cases x with
  | cycle =>
    refine InStep.step rfl rfl (fun _ => poll_under s d) fun i hi => ?_
    exact ⟨fault?_under (h i hi), after_under (h i hi)⟩
  | _ => exact .ok rfl

theorem follow_under (h : ∀ e ∈ s.history xs, ¬ e.Sensitive d) :
    (s.under d).follow xs = (s.follow xs).map (·.under d) := by
  refine InStep.eq_map (InStep.follow (P := fun e => ¬ e.Sensitive d) ?_ rfl h)
  rintro s _ x rfl hs
  exact respond_under hs

theorem dialect_of_mem_history {e : Execution} (h : e ∈ s.history xs) :
    e.before.dialect = s.dialect := by
  obtain ⟨-, ys, -, hys⟩ := exists_of_mem_history h
  exact follow_invariant (P := fun t => t.dialect = s.dialect)
    (fun hu hv => (dialect_respond hv).trans hu) rfl hys

/-- Runs of one schedule under two dialects agree in all but the dialect, faults included, as long
as the first executes nothing sensitive; a difference in the rate alone never shows. -/
theorem dialects_in_lockstep (s : State) (d : Dialect) (xs : List Stimulus) :
    ((∀ e ∈ s.history xs, ¬ e.Sensitive d) →
      ∀ ys, ys <+: xs → (s.under d).follow ys = (s.follow ys).map (·.under d)) ∧
    ∀ frequency, (s.under { s.dialect with frequency }).follow xs =
      (s.follow xs).map (·.under { s.dialect with frequency }) := by
  constructor
  · rintro h ys ⟨zs, rfl⟩
    exact follow_under fun e he => h e ((history_mono s ys zs).subset he)
  · intro frequency
    refine follow_under fun e he => ?_
    rw [← dialect_of_mem_history he]
    exact e.not_sensitive_of_rate frequency

theorem dialects_in_lockstep_to_fault :
    ∃ s, (Machine.ofProgram [0x81, 0x16, 0xA0, 0x50, 0xD1, 0x15, 0xB0, 0x50]).reset = .ok s ∧
      (∀ e ∈ s.history (List.replicate 5 .cycle),
        ¬ e.Sensitive (.ofFlags false false true true true)) ∧
      s.follow (List.replicate 5 .cycle) = .error (.invalidOpcode 0xF090) ∧
      (s.under (.ofFlags false false true true true)).follow (List.replicate 5 .cycle) =
        .error (.invalidOpcode 0xF090) := by
  have hrun : ((Machine.ofProgram
      [0x81, 0x16, 0xA0, 0x50, 0xD1, 0x15, 0xB0, 0x50]).reset.toOption.any fun s =>
        ((s.history (List.replicate 5 .cycle)).all fun e =>
          decide (¬ e.Sensitive (.ofFlags false false true true true))) &&
        errorOf? (s.follow (List.replicate 5 .cycle)) == some (.invalidOpcode 0xF090)) = true := by
    decide +kernel
  obtain ⟨s, hs, hrun⟩ := exists_ok_of_any hrun
  obtain ⟨hsafe, hfault⟩ := Bool.and_eq_true_iff.mp hrun
  have hsafe' : ∀ e ∈ s.history (List.replicate 5 .cycle),
      ¬ e.Sensitive (.ofFlags false false true true true) := by
    simpa using hsafe
  have hend : s.follow (List.replicate 5 .cycle) = .error (.invalidOpcode 0xF090) :=
    errorOf?_eq_some_iff.mp (beq_iff_eq.mp hfault)
  refine ⟨s, hs, hsafe', hend, ?_⟩
  rw [(dialects_in_lockstep s _ _).1 hsafe' _ List.prefix_rfl, hend]
  rfl

end State

end Chip8
