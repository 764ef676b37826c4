import Chip8.CallStack
import Chip8.Setting.Integer

/-! # Faults from values

A fault can be asked for by its name and any values. Those that no machine
cycle would have are shown and kept as they are given.
-/

namespace Chip8.Fault

def invalidOpcodeOf : Setting → Except Failure Fault
  | .number word => .ok (.invalidOpcode word)
  | word => do
    return .other "InvalidOpcode" (invalidOpcodeText (← word.hexadecimal 4)) [("word", word)]

def stackOverflowOf : Setting → Fault
  | .number capacity => .stackOverflow capacity
  | capacity =>
    .other "StackOverflow" (stackOverflowText capacity.display) [("capacity", capacity)]

def outOfBoundsOf : Setting → Setting → Except Failure Fault
  | .number address, .number length => .ok (.outOfBounds address length)
  | address, length => do
    return .other "MemoryOutOfBounds" (outOfBoundsText (← address.hexadecimal 1) length.display)
      [("address", address), ("length", length)]

def textOf : List Setting → String
  | [] => ""
  | [value] => value.display
  | values => "(" ++ ", ".intercalate (Setting.quotedItems values) ++ ")"

/-- The fault of a name with some values. The capacity and the length may be left out. -/
def ofArguments (title : String) (values : List Setting) : Except Failure Fault :=
  match title, values with
  | "InvalidOpcode", [word] => invalidOpcodeOf word
  | "StackOverflow", [] => .ok (.stackOverflow CallStack.capacity)
  | "StackOverflow", [capacity] => .ok (stackOverflowOf capacity)
  | "StackUnderflow", [] => .ok .stackUnderflow
  | "MemoryOutOfBounds", [address] => outOfBoundsOf address (.number 1)
  | "MemoryOutOfBounds", [address, length] => outOfBoundsOf address length
  | "Chip8Error", values => .ok (.other title (textOf values) [])
  | _, _ => .error .unsuitable

end Chip8.Fault
