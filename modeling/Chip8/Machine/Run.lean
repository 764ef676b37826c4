import Chip8.Log.Progress
import Chip8.Machine.Basic

/-! # Runs

A machine runs in frames: as many instructions as its pace says, then one timer
tick. What a run reports and counts is kept in a session, also when a fault ends
the run.
-/

namespace Chip8

/-- What runs of a machine leave behind. -/
structure Session where
  journal : Log.Journal
  clock : Quantity
  executed : Nat := 0

namespace Session

def report (σ : Session) (r : Log.Report) : Session :=
  { σ with journal := σ.journal.add σ.clock r }

def tell (σ : Session) (level text : String) : Session := σ.report (.message level text)

end Session

namespace Machine

def announce (m : Machine) (σ : Session) (s : State) : Session :=
  if m.trace.holds && s.waiting.isNone then
    match s.peek with
    | .ok i => σ.report (.instruction (.number s.pc.toNat) i m.dialect.jumpsByX)
    | .error _ => σ
  else σ

/-- One instruction; a fault is reported with the state before it. -/
def step (m : Machine) (σ : Session) (s : State) : Session × Except Fault State :=
  let σ := m.announce σ s
  match s.step with
  | .ok t => ({ σ with executed := σ.executed + 1 }, .ok t)
  | .error f => (σ.report (.fault f s), .error f)

/-- Up to `n` instructions: the last good state and the fault that ended them early. -/
def cycles (m : Machine) : Nat → Session → State → Session × State × Option Fault
  | 0, σ, s => (σ, s, none)
  | n + 1, σ, s =>
    match m.step σ s with
    | (σ, .ok t) => m.cycles n σ t
    | (σ, .error f) => (σ, s, some f)

def runFrame (m : Machine) (σ : Session) (s : State) : Session × Except Failure State :=
  match m.frameLength with
  | .error failure => (σ, .error failure)
  | .ok length =>
    match m.cycles length σ s with
    | (σ, t, none) => (σ, .ok t.tick)
    | (σ, _, some f) => (σ, .error (.fault f))

def run (m : Machine) : Nat → Session → State → Session × Except Failure State
  | 0, σ, s => (σ, .ok s)
  | n + 1, σ, s =>
    match m.runFrame σ s with
    | (σ, .ok t) => m.run n σ t
    | (σ, .error failure) => (σ, .error failure)

/-- As many frames as are asked for, none if the number is negative. -/
def runFor (m : Machine) (frames : Setting) (progress : Bool) (σ : Session) (s : State) :
    Session × Except Failure State :=
  match if progress then (Log.Progress.ofFrames frames).map some else .ok none with
  | .error failure => (σ, .error failure)
  | .ok _ =>
    match frames.whole? with
    | some n => m.run n.toNat σ s
    | none => (σ, .error .unsuitable)

end Machine

end Chip8
