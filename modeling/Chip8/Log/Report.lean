import Chip8.Instruction.Mnemonic
import Chip8.Log.Logger
import Chip8.Log.Registers
import Chip8.Setting.Integer

/-! # Reports

What a run has to tell, the messages that tell it, and the journal in which they
are kept. A traced instruction counts even if its message is filtered out or
cannot be told; otherwise a report that cannot be told changes nothing.
-/

namespace Chip8.Log

/-- Something that happened. -/
inductive Report where
  | message (level text : String)
  | runStart (settings : Settings)
  | instruction (pc : Setting) (instruction : Instruction) (jumpsByX : Bool)
  | fault (fault : Fault) (state : State)
  | runEnd (frames instructions : Setting)

namespace Report

def rule : String := String.ofList (List.replicate 60 '=')

def startMessages (settings : Settings) : List Message :=
  [⟨"INFO", rule⟩, ⟨"INFO", "Starting emulation with configuration:"⟩] ++
  settings.map (fun (key, value) => ⟨"INFO", "  " ++ key ++ ": " ++ value.display⟩) ++
  [⟨"INFO", rule⟩]

def instructionText (pc : String) (i : Instruction) (jumpsByX : Bool) : String :=
  pc ++ ": " ++ Text.hex 4 i.word.toNat ++ "  " ++ i.text jumpsByX

def speed (instructions : Setting) (elapsed : Quantity) : Except Failure Float :=
  if (Quantity.whole 0).lt elapsed then
    match instructions.quantity? with
    | some n => Failure.ofRange (n.ratio? elapsed)
    | none => .error .unsuitable
  else .ok 0

def endText (frames instructions : Setting) (elapsed : Quantity) : Except Failure String := do
  let speed ← speed instructions elapsed
  let time ← Failure.ofRange (elapsed.fixed? 1)
  return "Ran " ++ frames.display ++ " frames (" ++ instructions.display ++ " instructions) in " ++
    time ++ "s (" ++ Text.fixed 0 speed ++ " instructions/s)"

/-- The messages that tell a report, given the time since the logger was opened. -/
def messages (elapsed : Option Quantity) : Report → Except Failure (List Message)
  | message level text => .ok [⟨level, text⟩]
  | runStart settings => .ok (startMessages settings)
  | instruction pc i jumpsByX => do
    return [⟨"DEBUG", instructionText (← pc.hexadecimal 3) i jumpsByX⟩]
  | fault f s => .ok [⟨"ERROR", f.title ++ ": " ++ f.message⟩, ⟨"ERROR", s.dump⟩]
  | runEnd frames instructions => do
    return [⟨"INFO", ← endText frames instructions (← Failure.ofRange elapsed)⟩]

def traced : Report → Nat
  | instruction .. => 1
  | _ => 0

def isMessage : Report → Bool
  | message .. => true
  | _ => false

end Report

/-- A logger with what it has printed and how many instructions it has traced. -/
structure Journal where
  logger : Logger
  traced : Nat := 0
  printed : Array String := #[]

namespace Journal

def entries (j : Journal) (now : Quantity) (r : Report) : Except Failure (List String) := do
  if !j.logger.reports && !r.isMessage then throw .plainLogger
  let messages ← r.messages (now.sub? j.logger.start)
  Failure.ofRange (j.logger.print? now messages)

def failure? (j : Journal) (now : Quantity) (r : Report) : Option Failure :=
  match j.entries now r with
  | .ok _ => none
  | .error failure => some failure

def add (j : Journal) (now : Quantity) (r : Report) : Journal :=
  { j with
    traced := j.traced + r.traced
    printed := j.printed ++ (j.entries now r).toOption.getD [] }

theorem getD_entries {j : Journal} (h : j.logger.reports = true) (now : Quantity) (r : Report) :
    (j.entries now r).toOption.getD [] =
      ((r.messages (now.sub? j.logger.start)).toOption.bind (j.logger.print? now)).getD [] := by
  simp only [entries, h]
  cases r.messages (now.sub? j.logger.start) with
  | error failure => rfl
  | ok messages =>
    change (Failure.ofRange (j.logger.print? now messages)).toOption.getD [] =
      (j.logger.print? now messages).getD []
    cases j.logger.print? now messages <;> rfl

def write (j : Journal) (text : String) : Journal := { j with printed := j.printed.push text }

end Journal

end Chip8.Log
