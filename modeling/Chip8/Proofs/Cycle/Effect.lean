import Chip8.Execution
import Mathlib.Tactic.Simps.Basic

/-! # The effect of an instruction

Whether an instruction fails is told by its operands and the state alone, and
each part of the state that it leaves is a function of the state before it. The
operational definition is the combination of the two.
-/

namespace Chip8

namespace State

/-- The state after the fetch of an instruction. -/
@[simps] def advance (s : State) : State := { s with pc := s.pc + 2 }

@[simp] theorem reg_advance (s : State) (x : Register) : s.advance.reg x = s.reg x := rfl

def offsetRegister (s : State) (target : Address) : Register :=
  if s.dialect.jumpsByX then Fin.ofNat 16 (target.val / 256) else 0

def offsetTarget (s : State) (target : Address) : Nat :=
  target.val + (s.reg (s.offsetRegister target)).toNat

def window (s : State) (count : Nat) : List UInt8 := s.memory.slice s.index.toNat count

def drawn (s : State) (x y : Register) (height : Fin 16) : Screen × Bool :=
  s.screen.draw (s.reg x).toNat (s.reg y).toNat (s.window height.val) s.dialect.clipsSprites

/-- The fault of an access to bytes from the index on, if they do not all lie in memory. -/
def windowFault? (s : State) (count : Nat) : Option Fault :=
  if 4096 < s.index.toNat + count then some (.outOfBounds s.index.toNat count) else none

theorem skipIf_eq (s : State) (condition : Bool) :
    s.skipIf condition = { s with pc := if condition then s.pc + 2 else s.pc } := by
  cases condition <;> rfl

theorem compute_eq (s : State) (op : Arith) (x y : Register) :
    s.compute op x y = { s with registers := (s.compute op x y).registers } := by
  unfold compute
  dsimp only
  split <;> rfl

theorem compute_congr {s t : State} (hr : t.registers = s.registers) (hd : t.dialect = s.dialect)
    (op : Arith) (x y : Register) :
    (t.compute op x y).registers = (s.compute op x y).registers := by
  have hreg : ∀ z, t.reg z = s.reg z := fun z => by simp only [reg, hr]
  simp only [compute, hreg, hd]
  split <;> simp only [setFlag, setReg, hr]

theorem jumpTo_eq (s : State) (target : Nat) :
    s.jumpTo target =
      if 0x1000 ≤ target then .error (.outOfBounds target 1)
      else .ok { s with pc := UInt16.ofNat target } := by
  unfold jumpTo
  rw [show (1 : Int) = (1 : Nat) from rfl, Memory.checkRange_natCast, Memory.size]
  simp only [Nat.lt_add_one_iff]
  split <;> rfl

end State

namespace Instruction

variable (s : State)

def skips : Instruction → Bool
  | skipEqByte x value => s.reg x == value
  | skipNeByte x value => s.reg x != value
  | skipEq x y => s.reg x == s.reg y
  | skipNe x y => s.reg x != s.reg y
  | skipKey x => s.keyOf x
  | skipNotKey x => !s.keyOf x
  | _ => false

def fault? : Instruction → Option Fault
  | ret => if s.stack.depth = 0 then some .stackUnderflow else none
  | call _ =>
    if s.stack.depth = 16 then some (.stackOverflow 16)
    else if 0x1000 ≤ s.pc.toNat then some (.outOfBounds s.pc.toNat 1)
    else none
  | jumpOffset target =>
    if 0x1000 ≤ s.offsetTarget target then some (.outOfBounds (s.offsetTarget target) 1) else none
  | draw _ _ height => s.windowFault? height.val
  | digits _ => s.windowFault? 3
  | storeRegisters x | loadRegisters x => s.windowFault? (x.val + 1)
  | _ => none

/-! ## The parts of the state -/

def stored : Instruction → List UInt8
  | digits x => decimalDigits (s.reg x)
  | storeRegisters x => s.registers.toList.take (x.val + 1)
  | _ => []

def registersAfter : Instruction → Vector UInt8 16
  | setByte x value => (s.setReg x value).registers
  | addByte x value => (s.setReg x (s.reg x + value)).registers
  | arith op x y => (s.compute op x y).registers
  | random x mask => (s.setReg x (s.generator.next.1 &&& mask)).registers
  | draw x y height => (s.setFlag (s.drawn x y height).2.toUInt8).registers
  | getDelay x => (s.setReg x s.delay).registers
  | waitKey x => s.firstKey?.elim s.registers fun key => (s.setReg x (UInt8.ofNat key)).registers
  | loadRegisters x => (s.setRegisters (s.window (x.val + 1))).registers
  | _ => s.registers

def indexAfter : Instruction → UInt16
  | setIndex target => UInt16.ofNat target
  | addIndex x => s.index + (s.reg x).toUInt16
  | glyph x => UInt16.ofNat (Font.address (Fin.ofNat 16 (s.reg x).toNat))
  | storeRegisters x | loadRegisters x => s.movedIndex x
  | _ => s.index

def pcAfter : Instruction → UInt16
  | ret => match s.stack.pop with
    | .ok (address, _) => address
    | .error _ => s.pc
  | jump target | call target => UInt16.ofNat target
  | jumpOffset target => UInt16.ofNat (s.offsetTarget target)
  | i => if i.skips s then s.pc + 2 else s.pc

def stackAfter : Instruction → CallStack
  | ret => match s.stack.pop with
    | .ok (_, stack) => stack
    | .error _ => s.stack
  | call _ => match s.stack.push s.pc.toNat with
    | .ok stack => stack
    | .error _ => s.stack
  | _ => s.stack

def delayAfter : Instruction → UInt8
  | setDelay x => s.reg x
  | _ => s.delay

def soundAfter : Instruction → UInt8
  | setSound x => s.reg x
  | _ => s.sound

def screenAfter : Instruction → Screen
  | clearScreen => .blank
  | draw x y height => (s.drawn x y height).1
  | _ => s.screen

def waitingAfter : Instruction → Option Register
  | waitKey x => s.firstKey?.elim (some x) fun _ => s.waiting
  | _ => s.waiting

def generatorAfter : Instruction → Generator
  | random .. => s.generator.next.2
  | _ => s.generator

/-- The state after an instruction without a fault. -/
@[simps] def after (i : Instruction) : State where
  memory := s.memory.store s.index.toNat (i.stored s)
  registers := i.registersAfter s
  index := i.indexAfter s
  pc := i.pcAfter s
  stack := i.stackAfter s
  delay := i.delayAfter s
  sound := i.soundAfter s
  keypad := s.keypad
  screen := i.screenAfter s
  waiting := i.waitingAfter s
  generator := i.generatorAfter s
  dialect := s.dialect

/-! ## Execution -/

theorem length_stored_registers (x : Register) :
    ((storeRegisters x).stored s).length = x.val + 1 := by
  have := x.isLt
  rw [stored, List.length_take, Vector.length_toList]
  omega

theorem getElem?_stored_registers {x r : Register} (h : r ≤ x) :
    ((storeRegisters x).stored s)[r.val]? = some (s.reg r) := by
  have hr : r.val < s.registers.toList.length := by
    rw [Vector.length_toList]
    exact r.isLt
  rw [stored, List.getElem?_take_of_lt (Nat.lt_succ_of_le h), List.getElem?_eq_getElem hr]
  rfl

theorem execute_ret :
    ret.execute s = match ret.fault? s with
      | some f => .error f
      | none => .ok (ret.after s) := by
  by_cases h : s.stack.depth = 0
  · simp [execute, fault?, h, CallStack.pop_of_empty h, bind, Except.bind]
  · obtain ⟨a, t, hp⟩ := CallStack.pop_of_ne_empty h
    simp only [execute, fault?, h, hp, bind, Except.bind, pure, Except.pure, if_false, after,
      pcAfter, stackAfter]
    rfl

theorem execute_call (target : Address) :
    (call target).execute s = match (call target).fault? s with
      | some f => .error f
      | none => .ok ((call target).after s) := by
  simp only [execute, fault?, after, pcAfter, stackAfter, CallStack.push_natCast]
  by_cases h : s.stack.depth < 16
  · have hd : s.stack.depth ≠ 16 := by omega
    by_cases ha : s.pc.toNat < 4096
    · have hr : ¬ 0x1000 ≤ s.pc.toNat := by omega
      simp only [h, hd, ha, hr, dif_pos, if_pos, if_false]
      rfl
    · have hr : 0x1000 ≤ s.pc.toNat := by omega
      simp only [h, hd, ha, hr, dif_pos, if_pos, if_false]
      rfl
  · have hd : s.stack.depth = 16 := by have := s.stack.depth_le; omega
    simp only [hd, if_pos]
    rfl

theorem execute_eq (i : Instruction) :
    i.execute s = match i.fault? s with
      | some f => .error f
      | none => .ok (i.after s) := by
  cases i with
  | ret => exact execute_ret s
  | call target => exact execute_call s target
  | jumpOffset target =>
    have ht : (jumpOffset target).execute s = s.jumpTo (s.offsetTarget target) := rfl
    rw [ht, State.jumpTo_eq]
    simp only [fault?]
    by_cases h : 0x1000 ≤ s.offsetTarget target
    · simp only [h, if_true]
    · simp only [h, if_false]
      rfl
  | draw x y height =>
    simp only [execute, State.drawSprite, Memory.read_natCast, fault?, State.windowFault?,
      Memory.size]
    by_cases h : 4096 < s.index.toNat + height.val <;> simp only [h, if_true, if_false] <;> rfl
  | digits x =>
    have hl : (decimalDigits (s.reg x)).length = 3 := rfl
    simp only [execute, Memory.write_natCast, hl, fault?, State.windowFault?, Memory.size]
    by_cases h : 4096 < s.index.toNat + 3 <;> simp only [h, if_true, if_false] <;> rfl
  | storeRegisters x =>
    have hl : (s.registers.toList.take (x.val + 1)).length = x.val + 1 :=
      length_stored_registers s x
    simp only [execute, Memory.write_natCast, hl, fault?, State.windowFault?, Memory.size]
    by_cases h : 4096 < s.index.toNat + (x.val + 1) <;> simp only [h, if_true, if_false] <;> rfl
  | loadRegisters x =>
    simp only [execute, Memory.read_natCast, fault?, State.windowFault?, Memory.size]
    by_cases h : 4096 < s.index.toNat + (x.val + 1) <;> simp only [h, if_true, if_false] <;> rfl
  | arith op x y =>
    simp only [execute, fault?]
    rw [State.compute_eq]
    rfl
  | waitKey x =>
    simp only [execute, fault?, after, registersAfter, waitingAfter]
    cases s.firstKey? <;> rfl
  | skipEqByte | skipNeByte | skipEq | skipNe | skipKey | skipNotKey =>
    simp only [execute, State.skipIf_eq]
    rfl
  | _ => rfl

end Instruction

end Chip8
