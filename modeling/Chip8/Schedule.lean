import Chip8.Execution

/-! # Schedules

What moves a machine from outside: cycles, timer ticks and keys, in any order. A
schedule is run from left to right and stops at the first fault.
-/

namespace Chip8

/-- One move of a schedule. -/
inductive Stimulus where
  | cycle
  | tick
  | setKey (key : Key) (down : Bool)
  | releaseKeys
  deriving DecidableEq, Repr

namespace State

def respond (s : State) : Stimulus → Except Fault State
  | .cycle => s.step
  | .tick => .ok s.tick
  | .setKey key down => .ok (s.setKey key down)
  | .releaseKeys => .ok s.releaseKeys

def follow (s : State) (schedule : List Stimulus) : Except Fault State := schedule.foldlM respond s

/-- The instruction that the next cycle executes, if it executes one. -/
def due? (s : State) : Option Instruction := if s.waiting.isSome then none else s.peek.toOption

end State

end Chip8
