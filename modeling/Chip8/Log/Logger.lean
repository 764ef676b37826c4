import Chip8.Failure
import Chip8.Log.Level

/-! # Loggers

A logger lets through the messages that rank at or above its threshold and shows
each with the time since its start, the level and its own name. A time that is
too large cannot be shown.
-/

namespace Chip8.Log

structure Message where
  level : String
  text : String
  deriving DecidableEq, Repr, Inhabited

/-- How messages are filtered and shown. -/
structure Logger where
  name : String
  threshold : String
  colors : Setting
  timestamps : Bool
  start : Quantity
  reports : Bool := true

namespace Logger

def make (name threshold : String) (colors : Setting) (terminal timestamps : Bool)
    (now : Quantity) : Logger where
  name
  threshold := Text.upper threshold
  colors := if colors.holds then .flag terminal else colors
  timestamps
  start := now

def defaults : Settings :=
  [("name", .text "Chix8"), ("log_level", .text "INFO"), ("use_colors", .flag true),
   ("show_timestamps", .flag true)]

def ofSettings (options : Settings) (terminal : Bool) (now : Quantity) :
    Except Failure Logger := do
  options.checkNames (defaults.map Prod.fst)
  let value (name : String) := ((options ++ defaults).lookup name).getD .absent
  match value "log_level" with
  | .text threshold =>
    return make (value "name").display threshold (value "use_colors") terminal
      (value "show_timestamps").holds now
  | _ => throw .namelessLevel

def accepts (l : Logger) (level : String) : Bool := decide (rankOf l.threshold ≤ rank level)

def showLevel (l : Logger) (level : String) : String :=
  let field := "[" ++ Text.alignRight 8 level ++ "]"
  if l.colors.holds then colorOf (Text.upper level) ++ field ++ resetColor else field

def showTime? (l : Logger) (now : Quantity) : Option String :=
  if l.timestamps then do
    let elapsed ← now.sub? l.start
    return "[" ++ Text.alignRight 8 (← elapsed.fixed? 2) ++ "s]"
  else some ""

def format (l : Logger) (time : String) (m : Message) : String :=
  time ++ l.showLevel m.level ++ "[" ++ l.name ++ "] " ++ m.text

/-- The texts that are printed for some messages; a time is needed only if there are any. -/
def print? (l : Logger) (now : Quantity) (messages : List Message) : Option (List String) :=
  match messages.filter fun m => l.accepts m.level with
  | [] => some []
  | shown => (l.showTime? now).map fun time => shown.map (l.format time)

theorem print?_of_showTime? {l : Logger} {now : Quantity} {time : String}
    (h : l.showTime? now = some time) (messages : List Message) :
    l.print? now messages =
      some ((messages.filter fun m => l.accepts m.level).map (l.format time)) := by
  rw [print?, h]
  cases messages.filter fun m => l.accepts m.level <;> rfl

end Logger

end Chip8.Log
