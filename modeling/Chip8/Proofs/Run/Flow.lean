import Chip8.Proofs.Cycle.Counter
import Chip8.Proofs.Cycle.Faults
import Chip8.Proofs.Run.Reach

/-! # The flow of control

Where a cycle goes on, told by the nibbles of the word at the program counter: at a
target, behind the call that a return comes back to, behind the word or behind the
next one. Of two opposite conditions exactly one passes over the next word.
-/

namespace Chip8

def Word.bytes (w : UInt16) : List UInt8 := [UInt8.ofNat (w.toNat / 256), w.toUInt8]

open Word

namespace Instruction

/-- The instructions that pass over the next one on opposite conditions. -/
inductive Opposite : Instruction → Instruction → Prop
  | byte {x : Register} {value : UInt8} : Opposite (.skipEqByte x value) (.skipNeByte x value)
  | register {x y : Register} : Opposite (.skipEq x y) (.skipNe x y)
  | key {x : Register} : Opposite (.skipKey x) (.skipNotKey x)

/-- An instruction that does nothing but pass over the next one on a condition. -/
def IsSkip (i : Instruction) : Prop := ∀ s : State, i.execute s = .ok (s.skipIf (i.skips s))

variable {i j : Instruction}

theorem Opposite.isSkip (h : Opposite i j) : i.IsSkip ∧ j.IsSkip := by
  cases h <;> exact ⟨fun _ => rfl, fun _ => rfl⟩

theorem Opposite.skips_eq (h : Opposite i j) (s : State) : j.skips s = !i.skips s := by
  cases h <;> rfl

theorem skips_skipEq_self (s : State) (x : Register) : (skipEq x x).skips s = true :=
  beq_self_eq_true (s.reg x)

end Instruction

open Instruction

namespace State

variable {s t : State} {i j : Instruction} {w : UInt16}

/-! ## Successors -/

def keyDown (s : State) (x : Register) : Bool := s.keypad[(s.reg x).toNat % 16]? == some true

/-- A word is that of a condition which passes over the next word. -/
def passes (s : State) (w : UInt16) : Bool :=
  match (opcode w).val with
  | 0x3 => s.reg (x w) == nn w
  | 0x4 => s.reg (x w) != nn w
  | 0x5 => s.reg (x w) == s.reg (y w)
  | 0x9 => s.reg (x w) != s.reg (y w)
  | 0xE => s.keyDown (x w) == (nn w == 0x9E)
  | _ => false

/-- Where a word at the program counter leads. -/
def successor (s : State) (w : UInt16) : Nat :=
  match (opcode w).val with
  | 0x1 | 0x2 => (nnn w).val
  | 0xB => (nnn w).val + (s.reg (if s.dialect.jumpsByX then x w else 0)).toNat
  | _ =>
    if w = 0x00EE then (s.stack.toList.headD 0).toNat
    else s.pc.toNat + if s.passes w then 4 else 2

theorem keyDown_eq (s : State) (x : Register) : s.keyDown x = s.keyOf x := by
  have hlt := Nat.mod_lt (s.reg x).toNat (by decide : 0 < 16)
  have hkey : s.keypad[(s.reg x).toNat % 16]? = some (s.keyOf x) :=
    Vector.getElem?_eq_getElem hlt
  rw [keyDown, hkey]
  cases s.keyOf x <;> rfl

theorem passes_word (s : State) (i : Instruction) : s.passes i.word = i.skips s := by
  cases i with
  | clearScreen | ret => rfl
  | skipKey | skipNotKey =>
    simp [passes, word, opcode_ofByte, x_ofByte, nn_ofByte, skips, keyDown_eq]
  | _ =>
    simp [passes, word, opcode_ofAddress, opcode_ofByte, x_ofByte, nn_ofByte, opcode_ofNibbles,
      x_ofNibbles, y_ofNibbles, skips]

theorem word_eq_ret_iff : i.word = 0x00EE ↔ i = .ret := by
  constructor
  · intro h
    have hi := ofWord?_word i
    rw [h] at hi
    exact (Option.some.inj hi).symm
  · rintro rfl
    rfl

theorem successor_word (s : State) (i : Instruction) : s.successor i.word = i.leadsTo s := by
  unfold successor
  rw [passes_word]
  simp only [word_eq_ret_iff]
  cases i with
  | clearScreen | ret => rfl
  | jumpOffset target =>
    simp [word, opcode_ofAddress, nnn_ofAddress, x_ofAddress, leadsTo, offsetTarget,
      offsetRegister]
  | _ =>
    simp [word, opcode_ofAddress, nnn_ofAddress, opcode_ofByte, opcode_ofNibbles, leadsTo]

theorem exists_due?_of_step (hw : s.waiting = none) (h : s.step = .ok t) :
    ∃ i : Instruction, s.due? = some i ∧ s.memory.word s.pc.toNat = i.word := by
  rcases step_eq_ok_iff.mp h with ⟨hwait, -⟩ | ⟨i, hi, -⟩
  · exact absurd hw hwait
  · exact ⟨i, hi, (peek_eq_ok_iff.mp (due?_eq_some_iff.mp hi).2).2⟩

theorem eq_call_of_opcode (h : (opcode i.word).val = 0x2) : i = .call (nnn i.word) := by
  have hi : ofWord? i.word = some (.call (nnn i.word)) := by
    unfold ofWord?
    rw [h]
    rfl
  rw [ofWord?_word] at hi
  exact Option.some.inj hi

theorem toList_stack_of_ret (hd : s.due? = some .ret) (h : s.step = .ok t) :
    s.stack.toList = t.pc :: t.stack.toList := by
  have hm : StackMove s t (some .ret) := hd ▸ stackMove_respond (x := .cycle) h
  cases hm with
  | ret hpop => exact CallStack.toList_pop hpop
  | keep _ hret _ => exact absurd rfl hret

/-! ## Words at the program counter -/

def place (s : State) (i : Instruction) : State :=
  { s with memory := s.memory.store s.pc.toNat (bytes i.word) }

theorem word_place (hp : s.pc.toNat ≤ 0xFFE) (i : Instruction) :
    (s.place i).memory.word s.pc.toNat = i.word := by
  have hlt := i.word.toNat_lt
  apply UInt16.toNat_inj.mp
  simp only [place, bytes, Memory.word, Memory.byte_store, List.length_cons, List.length_nil]
  rw [if_pos (by omega), if_pos (by omega), Nat.sub_self, Nat.add_sub_cancel_left]
  simp
  omega

theorem step_place (hw : s.waiting = none) (hp : s.pc.toNat ≤ 0xFFE) (i : Instruction) :
    (s.place i).step = i.execute (s.place i).advance := by
  have hw' : (s.place i).waiting = none := hw
  have hpeek : (s.place i).peek = .ok i := peek_eq_ok_iff.mpr ⟨hp, word_place hp i⟩
  rw [step_of_idle hw', hpeek]

theorem skips_place (s : State) (i : Instruction) :
    i.skips (s.place i).advance = i.skips s := by
  cases i <;> rfl

/-! ## Conditions -/

def LeadsTo (r : Except Fault State) (pc : UInt16) : Prop := ∃ t, r = .ok t ∧ t.pc = pc

/-- The laws of the conditions in a state, for a way to run instructions which goes on at the given
address unless a condition holds: of two opposite ones exactly one passes over the next word. -/
structure SkipLaws (s : State) (next : UInt16) (run : Instruction → Except Fault State) :
    Prop where
  opposite : ∀ i j, Opposite i j →
    (LeadsTo (run i) (next + 2) ∧ LeadsTo (run j) next) ∨
      (LeadsTo (run i) next ∧ LeadsTo (run j) (next + 2))
  self : ∀ x, LeadsTo (run (.skipEq x x)) (next + 2)
  key : ∀ x, LeadsTo (run (.skipKey x)) (next + 2) ↔ s.keyDown x = true

theorem skipLaws_of {next : UInt16} {run : Instruction → Except Fault State}
    (h : ∀ i : Instruction, i.IsSkip →
      ∀ pc, LeadsTo (run i) pc ↔ (if i.skips s then next + 2 else next) = pc) :
    s.SkipLaws next run where
  opposite i j hij := by
    obtain ⟨hi, hj⟩ := hij.isSkip
    have hnot := hij.skips_eq s
    cases hc : i.skips s with
    | true =>
      left
      rw [h i hi, h j hj, hnot, hc]
      exact ⟨rfl, rfl⟩
    | false =>
      right
      rw [h i hi, h j hj, hnot, hc]
      exact ⟨rfl, rfl⟩
  self x := (h _ (fun _ => rfl) _).mpr (if_pos (skips_skipEq_self s x))
  key x := by
    have hne : next ≠ next + 2 := by simp
    rw [h _ (fun _ => rfl), keyDown_eq]
    change (if s.keyOf x = true then next + 2 else next) = next + 2 ↔ s.keyOf x = true
    cases s.keyOf x with
    | true => exact ⟨fun _ => rfl, fun _ => rfl⟩
    | false => exact ⟨fun he => absurd he hne, nofun⟩

theorem leadsTo_skipIf (s : State) (c : Bool) (pc : UInt16) :
    LeadsTo (.ok (s.skipIf c)) pc ↔ (if c then s.pc + 2 else s.pc) = pc := by
  rw [skipIf_eq]
  constructor
  · rintro ⟨t, ht, rfl⟩
    cases ht
    rfl
  · rintro rfl
    exact ⟨_, rfl, rfl⟩

theorem skipLaws_executeWord (s : State) :
    s.SkipLaws s.pc fun i => s.executeWord i.word.toNat :=
  skipLaws_of fun i hi pc => by rw [executeWord_word, hi, leadsTo_skipIf]

theorem skipLaws_place (hw : s.waiting = none) (hp : s.pc.toNat ≤ 0xFFE) :
    s.SkipLaws (s.pc + 2) fun i => (s.place i).step :=
  skipLaws_of fun i hi pc => by
    rw [step_place hw hp, hi, skips_place, leadsTo_skipIf]
    rfl

/-- The law of the program counter. A cycle that fetches a word goes on where its nibbles say, in
numbers that do not wrap around; a call saves the address behind it, and a return goes back to the
address saved last. The conditions obey their laws in every state, as words by themselves and,
unless a key is awaited, at the program counter. -/
theorem control_flow :
    (∀ s t : State, s.waiting = none → s.step = .ok t →
      t.pc.toNat = s.successor (s.memory.word s.pc.toNat) ∧
      ((opcode (s.memory.word s.pc.toNat)).val = 0x2 → ∃ a : UInt16,
        a.toNat = s.pc.toNat + 2 ∧ t.stack.toList = a :: s.stack.toList) ∧
      (s.memory.word s.pc.toNat = 0x00EE → s.stack.toList = t.pc :: t.stack.toList)) ∧
    ∀ s : State, (s.SkipLaws s.pc fun i => s.executeWord i.word.toNat) ∧
      (s.waiting = none → s.pc.toNat ≤ 0xFFE →
        s.SkipLaws (s.pc + 2) fun i => (s.place i).step) := by
  refine ⟨fun s t hw h => ?_, fun s => ⟨skipLaws_executeWord s, skipLaws_place⟩⟩
  obtain ⟨i, hd, hword⟩ := exists_due?_of_step hw h
  rw [hword]
  refine ⟨(toNat_pc_of_step hd h).trans (successor_word s i).symm, fun hcall => ?_, fun hret => ?_⟩
  · rw [eq_call_of_opcode hcall] at hd
    obtain ⟨hlt, hstack⟩ := toList_stack_of_call hd h
    refine ⟨_, ?_, hstack⟩
    rw [UInt16.toNat_ofNat']
    omega
  · rw [word_eq_ret_iff.mp hret] at hd
    exact toList_stack_of_ret hd h

theorem control_flow_call :
    ∃ s t u, (Machine.ofProgram [0x22, 0x04, 0, 0, 0x00, 0xEE]).reset = .ok s ∧
      s.waiting = none ∧ s.step = .ok t ∧ (opcode (s.memory.word s.pc.toNat)).val = 0x2 ∧
      t.pc.toNat = 0x204 ∧ t.stack.toList.length = 1 ∧ t.waiting = none ∧ t.step = .ok u ∧
      t.memory.word t.pc.toNat = 0x00EE ∧ u.pc.toNat = 0x202 ∧ s.pc.toNat ≤ 0xFFE ∧
      LeadsTo (s.place (.skipNotKey 0)).step 0x204 := by
  have hrun : ((Machine.ofProgram [0x22, 0x04, 0, 0, 0x00, 0xEE]).reset.toOption.any fun s =>
      s.step.toOption.any fun t => t.step.toOption.any fun _ =>
        s.waiting == none && (opcode (s.memory.word s.pc.toNat)).val == 0x2 && s.pc == 0x200 &&
          s.successor (s.memory.word s.pc.toNat) == 0x204 && s.stack.toList == [] &&
          t.waiting == none && t.memory.word t.pc.toNat == 0x00EE && !s.keyDown 0) = true := by
    decide +kernel
  obtain ⟨s, hs, hrun⟩ := exists_ok_of_any hrun
  obtain ⟨t, ht, hrun⟩ := exists_ok_of_any hrun
  obtain ⟨u, hu, hrun⟩ := exists_ok_of_any hrun
  simp only [Bool.and_eq_true, beq_iff_eq, Bool.not_eq_true'] at hrun
  obtain ⟨⟨⟨⟨⟨⟨⟨hw, hcall⟩, hpc⟩, hnext⟩, hempty⟩, hwt⟩, hret⟩, hkey⟩ := hrun
  have hp : s.pc.toNat ≤ 0xFFE := by
    rw [hpc]
    decide
  obtain ⟨hto, hsaved, -⟩ := control_flow.1 s t hw ht
  obtain ⟨a, ha, hstack⟩ := hsaved hcall
  obtain ⟨-, -, hback⟩ := control_flow.1 t u hwt hu
  have hlaws := (control_flow.2 s).2 hw hp
  rw [hempty] at hstack
  have hu202 : u.pc.toNat = 0x202 := by
    have hcons := (hback hret).symm.trans hstack
    rw [(List.cons.inj hcons).1, ha, hpc]
    rfl
  refine ⟨s, t, u, hs, hw, ht, hcall, hto.trans hnext, by rw [hstack]; rfl, hwt, hu, hret, hu202,
    hp, ?_⟩
  rcases hlaws.opposite _ _ (.key (x := 0)) with ⟨hdown, -⟩ | ⟨-, hup⟩
  · have hkey' := (hlaws.key 0).mp hdown
    rw [hkey] at hkey'
    cases hkey'
  · rw [hpc] at hup
    exact hup

end State

end Chip8
