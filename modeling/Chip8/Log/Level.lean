import Chip8.Text.Uppercase

/-! # Levels

The importance of a message, given by a name in any case. A name that is not
one of the five ranks with `INFO`.
-/

namespace Chip8.Log

/-- The rank of an upper-case level name. -/
def rankOf : String → Nat
  | "DEBUG" => 0
  | "INFO" => 1
  | "WARNING" => 2
  | "ERROR" => 3
  | "CRITICAL" => 4
  | _ => 1

def rank (level : String) : Nat := rankOf (Text.upper level)

def resetColor : String := "\x1b[0m"

def colorOf : String → String
  | "DEBUG" => "\x1b[36m"
  | "INFO" => "\x1b[32m"
  | "WARNING" => "\x1b[33m"
  | "ERROR" => "\x1b[31m"
  | "CRITICAL" => "\x1b[35m"
  | "RESET" => resetColor
  | _ => ""

end Chip8.Log
