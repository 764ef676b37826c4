import Chip8.Setting
import Chip8.Text.Hexadecimal

/-! # Faults

What can go wrong inside one machine cycle. Every fault leaves the state as it
was before the cycle.
-/

namespace Chip8

/-- A cause for which a cycle cannot be completed. -/
inductive Fault where
  | invalidOpcode (word : Int)
  | stackOverflow (capacity : Int)
  | stackUnderflow
  | outOfBounds (address length : Int)
  | other (title text : String) (attributes : Settings)
  deriving DecidableEq, Repr, Inhabited

namespace Fault

def title : Fault → String
  | invalidOpcode _ => "InvalidOpcode"
  | stackOverflow _ => "StackOverflow"
  | stackUnderflow => "StackUnderflow"
  | outOfBounds .. => "MemoryOutOfBounds"
  | other title .. => title

/-! ## Sentences -/

def invalidOpcodeText (word : String) : String := "Invalid instruction 0x" ++ word

def stackOverflowText (capacity : String) : String :=
  s!"Stack overflow: more than {capacity} nested calls"

def outOfBoundsText (address length : String) : String :=
  s!"Memory access of {length} byte(s) at 0x{address} outside 0x000-0xFFF"

def message : Fault → String
  | invalidOpcode word => invalidOpcodeText (Text.hexInt 4 word)
  | stackOverflow capacity => stackOverflowText (toString capacity)
  | stackUnderflow => "Stack underflow: return without matching call"
  | outOfBounds address length => outOfBoundsText (Text.hexInt 1 address) (toString length)
  | other _ text _ => text

def attributes : Fault → Settings
  | invalidOpcode word => [("word", .number word)]
  | stackOverflow capacity => [("capacity", .number capacity)]
  | stackUnderflow => []
  | outOfBounds address length => [("address", .number address), ("length", .number length)]
  | other _ _ attributes => attributes

end Fault

/-! ## Outcomes -/

section

variable {ε α β : Type} {x : Except ε α} {b : β}

theorem exists_of_bind_eq_ok {f : α → Except ε β} (h : x >>= f = .ok b) :
    ∃ a, x = .ok a ∧ f a = .ok b := by
  cases x with
  | error failure => exact nomatch h
  | ok a => exact ⟨a, rfl, h⟩

theorem exists_of_map_eq_ok {f : α → β} (h : x.map f = .ok b) : ∃ a, x = .ok a ∧ f a = b := by
  cases x with
  | error failure => exact nomatch h
  | ok a => exact ⟨a, rfl, Except.ok.inj h⟩

end

end Chip8
