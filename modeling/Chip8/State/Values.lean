import Chip8.Execution
import Chip8.Fault.Arguments

/-! # Operations on values

Single operations on a state with values as a user gives them. Addresses and
coordinates are cut to integers; what names a key or counts bytes is taken as it
is, and a fault shows it unchanged.
-/

namespace Chip8.State

def checkAt (address length : Setting) : Except Failure Int := do
  let a ← address.integer
  if 0 ≤ a then
    match length.quantity? with
    | none => throw .unsuitable
    | some n =>
      let stop ← Failure.ofRange ((Quantity.whole a).add? n)
      if stop.le (.whole Memory.size) then return a
  throw (.fault (← Fault.outOfBoundsOf (.number a) length))

def bytesAt (s : State) (address length : Setting) : Except Failure (List UInt8) := do
  let a ← checkAt address length
  match length.whole? with
  | some n => Failure.ofFault (s.memory.read a n)
  | none => throw .unsuitable

def wordAt (s : State) (address : Setting) : Except Failure UInt16 := do
  Failure.ofFault (s.memory.readWord (← address.integer))

/-- The bytes that some values give. Where nothing stands for a value, that is refused first. -/
def bytesOf (values : List Setting) : Except Failure (List UInt8) := do
  if values.contains .absent then throw .unsuitable
  values.mapM fun v =>
    match v, v.byte with
    | .list _, _ => .error .improper
    | .text _, .error .valueOutOfRange | .real _, .error .valueOutOfRange =>
      .error .valueOutOfRange
    | .text _, .error _ | .real _, .error _ => .error .improper
    | _, b => b

/-- Writes values to memory; each must give a byte, and then the range must lie in memory. -/
def poke (s : State) (address : Setting) (values : List Setting) : Except Failure State := do
  let bytes ← bytesOf values
  let a ← address.integer
  Failure.ofFault do return { s with memory := ← s.memory.write a bytes }

def stamp (s : State) (x y : Setting) (values : List Setting) (clip : Bool) :
    Except Failure (State × Bool) := do
  let sprite ← bytesOf values
  let (screen, hit) := s.screen.draw (← x.integer) (← y.integer) sprite clip
  return ({ s with screen }, hit)

def setKeyAt (s : State) (key : Setting) (down : Bool) : Except Failure State :=
  match key.quantity?, key with
  | none, _ => .error .unsuitable
  | some q, _ =>
    if (Quantity.whole 0).le q && q.lt (.whole 16) then
      match key with
      | .number i =>
        if h : 0 ≤ i ∧ i < 16 then .ok (s.setKey ⟨i.toNat, by omega⟩ down)
        else .error (.keyOutOfRange key)
      | _ => .error .unsuitable
    else .error (.keyOutOfRange key)

def pushAt (s : State) (address : Setting) : Except Failure State := do
  if CallStack.capacity ≤ s.stack.depth then
    throw (.fault (.stackOverflow CallStack.capacity))
  let a ← address.integer
  Failure.ofFault do return { s with stack := ← s.stack.push a }

def executeAt (s : State) (word : Setting) : Except Failure State := do
  Failure.ofFault (s.executeWord (← word.integer))

end Chip8.State

def Chip8.Instruction.decodeAt (word : Setting) : Except Failure Instruction := do
  Failure.ofFault (decode (← word.integer))
