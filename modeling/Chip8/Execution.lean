import Chip8.Arithmetic
import Chip8.Instruction.Word
import Chip8.State

/-! # Execution

The effect of each instruction and the machine cycle: fetch, decode, execute. A
machine that waits for a key polls the keypad instead.
-/

namespace Chip8

namespace State

def skipIf (s : State) (condition : Bool) : State :=
  if condition then { s with pc := s.pc + 2 } else s

def keyOf (s : State) (x : Register) : Bool := s.keypad[Fin.ofNat 16 (s.reg x).toNat]

def compute (s : State) (op : Arith) (x y : Register) : State :=
  let b := s.reg y
  let a := if op.shifts && !s.dialect.shiftsInPlace then b else s.reg x
  let (value, flag) := op.apply a b
  let flag := if op.isLogic && s.dialect.logicClearsFlag then some false else flag
  match flag with
  | some f => (s.setReg x value).setFlag f.toUInt8
  | none => s.setReg x value

def jumpTo (s : State) (target : Nat) : Except Fault State := do
  Memory.checkRange target 1
  return { s with pc := UInt16.ofNat target }

def drawSprite (s : State) (x y : Register) (height : Fin 16) : Except Fault State := do
  let sprite ← s.memory.read s.index.toNat height.val
  let (screen, hit) := s.screen.draw (s.reg x).toNat (s.reg y).toNat sprite s.dialect.clipsSprites
  return { s with screen }.setFlag hit.toUInt8

def movedIndex (s : State) (x : Register) : UInt16 :=
  if s.dialect.keepsIndex then s.index else s.index + UInt16.ofNat (x.val + 1)

def setRegisters (s : State) (values : List UInt8) : State :=
  { s with registers := Vector.ofFn fun i => values[i.val]?.getD (s.reg i) }

theorem reg_setRegisters (s : State) (values : List UInt8) (r : Register) :
    (s.setRegisters values).reg r = values[r.val]?.getD (s.reg r) :=
  Vector.getElem_ofFn r.isLt

end State

def decimalDigits (b : UInt8) : List UInt8 := [b / 100, b / 10 % 10, b % 10]

namespace Instruction

open State in
/-- The effect of an instruction on the state after its fetch. -/
def execute (s : State) : Instruction → Except Fault State
  | system _ => .ok s
  | clearScreen => .ok { s with screen := .blank }
  | ret => do
    let (address, stack) ← s.stack.pop
    return { s with stack, pc := address }
  | jump target => .ok { s with pc := UInt16.ofNat target }
  | call target => do
    let stack ← s.stack.push s.pc.toNat
    return { s with stack, pc := UInt16.ofNat target }
  | skipEqByte x value => .ok (s.skipIf (s.reg x == value))
  | skipNeByte x value => .ok (s.skipIf (s.reg x != value))
  | skipEq x y => .ok (s.skipIf (s.reg x == s.reg y))
  | skipNe x y => .ok (s.skipIf (s.reg x != s.reg y))
  | setByte x value => .ok (s.setReg x value)
  | addByte x value => .ok (s.setReg x (s.reg x + value))
  | arith op x y => .ok (s.compute op x y)
  | setIndex target => .ok { s with index := UInt16.ofNat target }
  | jumpOffset target =>
    let x : Register := if s.dialect.jumpsByX then Fin.ofNat 16 (target.val / 256) else 0
    s.jumpTo (target.val + (s.reg x).toNat)
  | random x mask =>
    let (byte, generator) := s.generator.next
    .ok ({ s with generator }.setReg x (byte &&& mask))
  | draw x y height => s.drawSprite x y height
  | skipKey x => .ok (s.skipIf (s.keyOf x))
  | skipNotKey x => .ok (s.skipIf (!s.keyOf x))
  | getDelay x => .ok (s.setReg x s.delay)
  | waitKey x =>
    match s.firstKey? with
    | some key => .ok (s.setReg x (UInt8.ofNat key))
    | none => .ok { s with waiting := some x }
  | setDelay x => .ok { s with delay := s.reg x }
  | setSound x => .ok { s with sound := s.reg x }
  | addIndex x => .ok { s with index := s.index + (s.reg x).toUInt16 }
  | glyph x => .ok { s with index := UInt16.ofNat (Font.address (Fin.ofNat 16 (s.reg x).toNat)) }
  | digits x => do
    return { s with memory := ← s.memory.write s.index.toNat (decimalDigits (s.reg x)) }
  | storeRegisters x => do
    let memory ← s.memory.write s.index.toNat (s.registers.toList.take (x.val + 1))
    return { s with memory, index := s.movedIndex x }
  | loadRegisters x => do
    let values ← s.memory.read s.index.toNat (x.val + 1 : Nat)
    return { s.setRegisters values with index := s.movedIndex x }

end Instruction

namespace State

def executeWord (s : State) (w : Int) : Except Fault State := do
  (← Instruction.decode w).execute s

def fetch (s : State) : Except Fault (UInt16 × State) := do
  let w ← s.memory.readWord s.pc.toNat
  return (w, { s with pc := s.pc + 2 })

def peek (s : State) : Except Fault Instruction := do
  Instruction.decodeWord (← s.memory.readWord s.pc.toNat)

/-- One machine cycle. -/
def step (s : State) : Except Fault State :=
  match s.waiting with
  | some _ => .ok s.poll
  | none => do
    let (w, s) ← s.fetch
    (← Instruction.decodeWord w).execute s

/-- Up to `n` cycles: the states after the successful ones, and the fault that ended them early. -/
def steps (s : State) : Nat → List State × Option Fault
  | 0 => ([], none)
  | n + 1 =>
    match s.step with
    | .ok t => let (ts, fault) := t.steps n; (t :: ts, fault)
    | .error fault => ([], some fault)

end State

end Chip8
