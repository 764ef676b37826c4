import Chip8.Proofs.Cycle.Step
import Mathlib.Data.Nat.Bitwise

/-! # Exact arithmetic

The value and the flag of a computation as numbers: together they make up the sum,
the difference or the shifted operand that does not fit into a byte. The operands
are those from before the computation and the flag is written last, so the law
holds whichever registers are the same.
-/

namespace Chip8

def Dialect.shifted (d : Dialect) (a b : UInt8) : UInt8 := if d.shiftsInPlace then a else b

def Dialect.logicFlag? (d : Dialect) : Option Bool :=
  if d.logicClearsFlag then some false else none

namespace Arith

variable {d : Dialect} {a b v w : UInt8} {flag flag' : Option Bool} {op : Arith}

/-- The value for `VX` and the flag, if there is one, that an operation makes of `a` and `b`, the
values of `VX` and `VY`. -/
inductive Makes (d : Dialect) (a b : UInt8) : Arith → UInt8 → Option Bool → Prop
  | set : Makes d a b .set b none
  | or {v : UInt8} : v.toNat = a.toNat ||| b.toNat → Makes d a b .or v d.logicFlag?
  | and {v : UInt8} : v.toNat = a.toNat &&& b.toNat → Makes d a b .and v d.logicFlag?
  | xor {v : UInt8} : v.toNat = a.toNat ^^^ b.toNat → Makes d a b .xor v d.logicFlag?
  | add {v : UInt8} {f : Bool} : v.toNat + 256 * f.toNat = a.toNat + b.toNat →
      Makes d a b .add v (some f)
  | sub {v : UInt8} {f : Bool} : (v.toNat : Int) = a.toNat - b.toNat + 256 * (1 - f.toNat) →
      Makes d a b .sub v (some f)
  | shiftRight {v : UInt8} {f : Bool} : 2 * v.toNat + f.toNat = (d.shifted a b).toNat →
      Makes d a b .shiftRight v (some f)
  | subFrom {v : UInt8} {f : Bool} : (v.toNat : Int) = b.toNat - a.toNat + 256 * (1 - f.toNat) →
      Makes d a b .subFrom v (some f)
  | shiftLeft {v : UInt8} {f : Bool} : v.toNat + 256 * f.toNat = 2 * (d.shifted a b).toNat →
      Makes d a b .shiftLeft v (some f)

/-! ## Bytes and flags -/

theorem toNat_decide (p : Prop) [Decidable p] : (decide p).toNat = if p then 1 else 0 :=
  Bool.cond_decide p 1 0

theorem toNat_bne_zero (a : UInt8) : (a != 0).toNat = if a.toNat = 0 then 0 else 1 := by
  by_cases h : a = 0
  · rw [h]
    rfl
  · have hn : a.toNat ≠ 0 := fun hz => h (UInt8.toNat_inj.mp hz)
    rw [if_neg hn, bne_iff_ne.mpr h]
    rfl

theorem toNat_low_bit (a : UInt8) : (a &&& 1 != 0).toNat = a.toNat % 2 := by
  have hbit : (a &&& 1).toNat = a.toNat % 2 := Nat.and_one_is_mod _
  rw [toNat_bne_zero, hbit]
  split <;> omega

theorem toNat_high_bit (a : UInt8) : (a &&& 0x80 != 0).toNat = a.toNat / 128 := by
  have hlt := a.toNat_lt
  have hbit : (a &&& 0x80).toNat = (a.toNat.testBit 7).toNat * 2 ^ 7 := by
    rw [UInt8.toNat_and, ← Nat.and_two_pow]
    rfl
  rw [toNat_bne_zero, hbit, Nat.testBit_eq_decide_div_mod_eq, toNat_decide]
  by_cases h : a.toNat / 2 ^ 7 % 2 = 1
  · rw [if_pos h, if_neg (by decide)]
    omega
  · rw [if_neg h, if_pos (by decide)]
    omega

theorem add_exact (a b : UInt8) :
    (a + b).toNat + 256 * (decide (0xFF < a.toNat + b.toNat)).toNat = a.toNat + b.toNat := by
  have ha := a.toNat_lt
  have hb := b.toNat_lt
  rw [UInt8.toNat_add, toNat_decide]
  split <;> omega

theorem sub_exact (a b : UInt8) :
    ((a - b).toNat : Int) = a.toNat - b.toNat + 256 * (1 - (decide (b ≤ a)).toNat) := by
  have ha := a.toNat_lt
  have hb := b.toNat_lt
  rw [UInt8.toNat_sub, toNat_decide]
  simp only [UInt8.le_iff_toNat_le]
  split <;> omega

theorem shiftRight_exact (a : UInt8) :
    2 * (a >>> 1).toNat + (a &&& 1 != 0).toNat = a.toNat := by
  have hhalf : (a >>> 1).toNat = a.toNat / 2 := by
    rw [UInt8.toNat_shiftRight]
    rfl
  rw [hhalf, toNat_low_bit]
  omega

theorem shiftLeft_exact (a : UInt8) :
    (a <<< 1).toNat + 256 * (a &&& 0x80 != 0).toNat = 2 * a.toNat := by
  have ha := a.toNat_lt
  have hdouble : (a <<< 1).toNat = 2 * a.toNat % 256 := by
    rw [UInt8.toNat_shiftLeft, Nat.shiftLeft_eq, Nat.mul_comm]
    rfl
  rw [hdouble, toNat_high_bit]
  omega

/-! ## Outcomes -/

def outcome (d : Dialect) (a b : UInt8) (op : Arith) : UInt8 × Option Bool :=
  let result := op.apply (if op.shifts && !d.shiftsInPlace then b else a) b
  (result.1, if op.isLogic && d.logicClearsFlag then some false else result.2)

theorem outcome_shift (h : op.shifts = true) (hl : op.isLogic = false) :
    op.outcome d a b = op.apply (d.shifted a b) b := by
  have hoperand : (if op.shifts && !d.shiftsInPlace then b else a) = d.shifted a b := by
    rw [h, Dialect.shifted]
    cases d.shiftsInPlace <;> rfl
  simp only [outcome, hoperand, hl, Bool.false_and, Bool.false_eq_true, if_false]

theorem makes_outcome (d : Dialect) (a b : UInt8) (op : Arith) :
    op.Makes d a b (op.outcome d a b).1 (op.outcome d a b).2 := by
  cases op with
  | set => exact .set
  | or => exact .or (UInt8.toNat_or a b)
  | and => exact .and (UInt8.toNat_and a b)
  | xor => exact .xor (UInt8.toNat_xor a b)
  | add => exact .add (add_exact a b)
  | sub => exact .sub (sub_exact a b)
  | shiftRight =>
    rw [outcome_shift rfl rfl]
    exact .shiftRight (shiftRight_exact _)
  | subFrom => exact .subFrom (sub_exact b a)
  | shiftLeft =>
    rw [outcome_shift rfl rfl]
    exact .shiftLeft (shiftLeft_exact _)

theorem eq_of_toNat_eq {f g : Bool} (hv : v.toNat = w.toNat) (hf : f.toNat = g.toNat) :
    v = w ∧ some f = some g := by
  have hflags : ∀ f g : Bool, f.toNat = g.toNat → f = g := by decide
  exact ⟨UInt8.toNat_inj.mp hv, congrArg some (hflags f g hf)⟩

theorem eq_of_high_eq {f g : Bool} (h : v.toNat + 256 * f.toNat = w.toNat + 256 * g.toNat) :
    v = w ∧ some f = some g := by
  have hv := v.toNat_lt
  have hw := w.toNat_lt
  exact eq_of_toNat_eq (by omega) (by omega)

theorem eq_of_low_eq {f g : Bool} (h : 2 * v.toNat + f.toNat = 2 * w.toNat + g.toNat) :
    v = w ∧ some f = some g := by
  have hf := f.toNat_le
  have hg := g.toNat_le
  exact eq_of_toNat_eq (by omega) (by omega)

theorem Makes.unique (h : op.Makes d a b v flag) (h' : op.Makes d a b w flag') :
    v = w ∧ flag = flag' := by
  cases h with
  | set =>
    cases h'
    exact ⟨rfl, rfl⟩
  | or h =>
    cases h' with
    | or h' => exact ⟨UInt8.toNat_inj.mp (h.trans h'.symm), rfl⟩
  | and h =>
    cases h' with
    | and h' => exact ⟨UInt8.toNat_inj.mp (h.trans h'.symm), rfl⟩
  | xor h =>
    cases h' with
    | xor h' => exact ⟨UInt8.toNat_inj.mp (h.trans h'.symm), rfl⟩
  | add h =>
    cases h' with
    | add h' => exact eq_of_high_eq (h.trans h'.symm)
  | sub h =>
    cases h' with
    | sub h' => exact eq_of_high_eq (by omega)
  | shiftRight h =>
    cases h' with
    | shiftRight h' => exact eq_of_low_eq (h.trans h'.symm)
  | subFrom h =>
    cases h' with
    | subFrom h' => exact eq_of_high_eq (by omega)
  | shiftLeft h =>
    cases h' with
    | shiftLeft h' => exact eq_of_high_eq (h.trans h'.symm)

end Arith

namespace State

variable {s : State} {op : Arith} {x y r : Register}

/-- A register after a value has gone to `VX` and then a flag, if there is one, to `VF`. -/
def regWith (s : State) (x : Register) (v : UInt8) (flag : Option Bool) (r : Register) : UInt8 :=
  match flag with
  | some f => if r = 15 then f.toUInt8 else if r = x then v else s.reg r
  | none => if r = x then v else s.reg r

theorem reg_compute (s : State) (op : Arith) (x y r : Register) :
    (s.compute op x y).reg r =
      s.regWith x (op.outcome s.dialect (s.reg x) (s.reg y)).1
        (op.outcome s.dialect (s.reg x) (s.reg y)).2 r := by
  have hcompute : s.compute op x y =
      match (op.outcome s.dialect (s.reg x) (s.reg y)).2 with
      | some f => (s.setReg x (op.outcome s.dialect (s.reg x) (s.reg y)).1).setFlag f.toUInt8
      | none => s.setReg x (op.outcome s.dialect (s.reg x) (s.reg y)).1 := rfl
  rw [hcompute]
  unfold regWith
  cases (op.outcome s.dialect (s.reg x) (s.reg y)).2 with
  | some f => simp only [setFlag, reg_setReg]
  | none => exact reg_setReg ..

theorem toNat_word_arith (op : Arith) (x y : Register) :
    ((Instruction.arith op x y).word.toNat : Int) =
      0x8000 + 0x100 * x.val + 0x10 * y.val + op.nibble.val := by
  rw [Instruction.word, Word.toNat_ofNibbles (by decide)]
  omega

theorem step_arith (hd : s.due? = some (.arith op x y)) :
    s.step = .ok { s.compute op x y with pc := s.pc + 2 } := by
  obtain ⟨hw, hp⟩ := due?_eq_some_iff.mp hd
  have hsame : (s.advance.compute op x y).registers = (s.compute op x y).registers :=
    compute_congr (s := s) (t := s.advance) rfl rfl op x y
  rw [step_of_idle hw, hp, compute_eq s]
  change Except.ok (s.advance.compute op x y) = _
  rw [compute_eq s.advance, hsame]
  rfl

/-- The arithmetic of the machine is exact. A computation leaves the only value and flag that
satisfy its equation for the operands from before it, the flag behind the value and nothing else;
and so does every cycle that executes it. -/
theorem arith_exact (s : State) (op : Arith) (x y : Register) :
    ∃ v flag t, op.Makes s.dialect (s.reg x) (s.reg y) v flag ∧
      (∀ w flag', op.Makes s.dialect (s.reg x) (s.reg y) w flag' → w = v ∧ flag' = flag) ∧
      s.executeWord (0x8000 + 0x100 * x.val + 0x10 * y.val + op.nibble.val) = .ok t ∧
      (∀ r, t.reg r = s.regWith x v flag r) ∧ t = { s with registers := t.registers } ∧
      (s.due? = some (.arith op x y) → s.step = .ok { t with pc := s.pc + 2 }) := by
  have hmakes := op.makes_outcome s.dialect (s.reg x) (s.reg y)
  refine ⟨_, _, s.compute op x y, hmakes, fun w flag' h => h.unique hmakes, ?_,
    reg_compute s op x y, compute_eq s op x y, step_arith⟩
  rw [← toNat_word_arith, executeWord_word]
  rfl

theorem arith_exact_carry :
    let s := { State.initial (Generator.ofSeed 0) {} with
      memory := Memory.zero.store 0x200 [0x8F, 0xF4], registers := Vector.replicate 16 0xFF }
    s.due? = some (.arith .add 15 15) ∧
      ∃ t, s.step = .ok t ∧ t.reg 15 = 1 ∧ t.reg 14 = 0xFF ∧ t.pc = 0x202 := by
  intro s
  have hd : s.due? = some (.arith .add 15 15) := by decide +kernel
  obtain ⟨v, flag, t, -, hunique, -, hreg, -, hstep⟩ := arith_exact s .add 15 15
  obtain ⟨-, rfl⟩ := hunique 254 (some true) (.add rfl)
  exact ⟨hd, _, hstep hd, hreg 15, hreg 14, rfl⟩

end State

end Chip8
