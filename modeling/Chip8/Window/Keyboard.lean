import Chip8.State

/-! # The keyboard

The keys of the keyboard by name: sixteen of them stand for the keypad, in the
layout of its four rows, and a few give commands to the window.
-/

namespace Chip8.Window

/-- The keys that stand for the keypad. -/
def keypadLayout : List (String × Key) :=
  [("1", 0x1), ("2", 0x2), ("3", 0x3), ("4", 0xC),
   ("q", 0x4), ("w", 0x5), ("e", 0x6), ("r", 0xD),
   ("a", 0x7), ("s", 0x8), ("d", 0x9), ("f", 0xE),
   ("z", 0xA), ("x", 0x0), ("c", 0xB), ("v", 0xF)]

def keypadKey? (key : String) : Option Key := keypadLayout.lookup key

/-- What the window can be told to do. -/
inductive Command where
  | quit | pause | inspect | reset | faster | slower
  deriving DecidableEq, Repr, Inhabited

def command? : String → Option Command
  | "ESCAPE" => some .quit
  | "p" => some .pause
  | "F1" => some .inspect
  | "F5" => some .reset
  | "EQUALS" => some .faster
  | "MINUS" => some .slower
  | _ => none

inductive Event where
  | quit
  | press (key : String)
  | release (key : String)
  | focusLost
  | other
  deriving DecidableEq, Repr, Inhabited

end Chip8.Window
