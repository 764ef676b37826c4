import Chip8.Options

/-! # Arguments

The written form of the options, `name=value`, and of the events of a window.
-/

namespace Chip8

def Setting.ofText (text : String) : Setting :=
  match text with
  | "null" | "~" | "" => .absent
  | "true" | "True" => .flag true
  | "false" | "False" => .flag false
  | _ => match text.toInt? with
    | some i => .number i
    | none => .text text

namespace Options

def splitArgument (argument : String) : String × String :=
  let cs := argument.toList
  (String.ofList (cs.takeWhile (· != '=')), String.ofList ((cs.dropWhile (· != '=')).drop 1))

def ofArguments (arguments : List String) : Except Failure Options :=
  defaults.assignAll (arguments.map fun argument => (splitArgument argument).map id .ofText)

end Options

namespace Window

/-- An event as a word: `+key`, `-key`, `blur` or `quit`. -/
def Event.ofText (word : String) : Event :=
  match word.toList with
  | '+' :: key => .press (String.ofList key)
  | '-' :: key => .release (String.ofList key)
  | _ => if word = "blur" then .focusLost else if word = "quit" then .quit else .other

def scriptOfText (text : String) : List (List Event) :=
  (text.splitOn "\n").map fun line => ((line.splitOn " ").filter (· != "")).map Event.ofText

end Window

end Chip8
