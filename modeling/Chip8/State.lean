import Chip8.CallStack
import Chip8.Dialect
import Chip8.Files
import Chip8.Font
import Chip8.Generator
import Chip8.Instruction.Basic
import Chip8.Screen.Sprite

/-! # The machine state

Memory, registers, call stack, timers, keypad, screen and generator, with the
dialect under which they run. A state can be waiting for a key, which then goes
into a register.
-/

namespace Chip8

abbrev Key := Fin 16

/-- A whole machine between two cycles. -/
structure State where
  memory : Memory
  registers : Vector UInt8 16
  index : UInt16
  pc : UInt16
  stack : CallStack
  delay : UInt8
  sound : UInt8
  keypad : Vector Bool 16
  screen : Screen
  waiting : Option Register
  generator : Generator
  dialect : Dialect
  deriving DecidableEq

namespace State

/-- A machine with the font in its memory and no program. -/
def initial (generator : Generator) (dialect : Dialect) : State where
  memory := Memory.zero.store Font.start Font.data
  registers := Vector.replicate 16 0
  index := 0
  pc := UInt16.ofNat Memory.programStart
  stack := .empty
  delay := 0
  sound := 0
  keypad := Vector.replicate 16 false
  screen := .blank
  waiting := none
  generator
  dialect

/-! ## Memory -/

def load (s : State) (program : List UInt8) : Except Fault State := do
  return { s with memory := ← s.memory.load program }

theorem load_eq (s : State) (program : List UInt8) :
    s.load program =
      if 3584 < program.length then .error (.outOfBounds 0x200 program.length)
      else .ok { s with memory := s.memory.store 0x200 program } := by
  have hmax : Memory.maxProgram = 3584 := rfl
  unfold load Memory.load
  rw [hmax]
  split
  · rfl
  · have hend : ¬ Memory.size < Memory.programStart + program.length := by
      simp only [Memory.size, Memory.programStart]
      omega
    rw [Memory.write_natCast, if_neg hend]
    rfl

def loadFile (s : State) (files : Files) (path : String) : Except Failure State := do
  Failure.ofFault (s.load (← files.read path))

/-! ## Registers -/

def reg (s : State) (x : Register) : UInt8 := s.registers[x]

def setReg (s : State) (x : Register) (value : UInt8) : State :=
  { s with registers := s.registers.set x value }

def setFlag (s : State) (value : UInt8) : State := s.setReg 15 value

theorem reg_setReg (s : State) (x : Register) (value : UInt8) (r : Register) :
    (s.setReg x value).reg r = if r = x then value else s.reg r := by
  have hset : (s.setReg x value).reg r = if x.val = r.val then value else s.reg r :=
    Vector.getElem_set x.isLt r.isLt
  simp only [hset, Fin.val_inj, @eq_comm _ r]

theorem reg_setReg_of_ne {s : State} {x r : Register} {value : UInt8} (h : r ≠ x) :
    (s.setReg x value).reg r = s.reg r := by
  rw [reg_setReg, if_neg h]

/-! ## Timers -/

def countDown (t : UInt8) : UInt8 := if t = 0 then 0 else t - 1

/-- One sixtieth of a second for both timers. -/
def tick (s : State) : State := { s with delay := countDown s.delay, sound := countDown s.sound }

def isSounding (s : State) : Bool := s.sound != 0

/-! ## Keypad -/

def setKey (s : State) (key : Key) (down : Bool) : State :=
  { s with keypad := s.keypad.set key down }

def releaseKeys (s : State) : State := { s with keypad := Vector.replicate 16 false }

def firstKey? (s : State) : Option Key := (List.finRange 16).find? fun key => s.keypad[key]

/-- Ends the wait for a key if one is down. -/
def poll (s : State) : State :=
  match s.waiting, s.firstKey? with
  | some x, some key => { s.setReg x (UInt8.ofNat key) with waiting := none }
  | _, _ => s

end State

end Chip8
