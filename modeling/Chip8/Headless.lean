import Chip8.Machine.Run

/-! # Headless runs

A run without a window: a number of frames from the start, then the screen as
the machine shows it and, on request, as a picture file. A fault ends the run and
is its exit status.
-/

namespace Chip8.Headless

/-- What to do besides running. Some settings are looked up late, and a lookup can fail. -/
structure Config where
  frames : Except Failure Setting
  progress : Except Failure Setting := .ok (.flag false)
  screenshot : Except Failure Setting := .ok .absent
  scale : Setting := .number 10
  scheme : Setting := .text "classic"
  directory : String := ""

structure Saved where
  path : String
  picture : Picture

/-- What a run leaves: its exit status or why there is none, and the picture it saved. -/
structure Outcome where
  session : Session
  exit : Except Failure Nat
  saved : Option Saved := none

def saveAs (c : Config) (imaging : Imaging) (file : Setting) (pixels : List (List Bool)) :
    Except Failure Saved := do
  match file with
  | .text name =>
    let path := resolvePath c.directory name
    return { path, picture := ← imaging.saveScreen path c.scale c.scheme pixels }
  | _ => throw .unsuitable

def savePicture (c : Config) (imaging : Imaging) (σ : Session) (s : State) : Outcome :=
  match c.screenshot with
  | .error failure => ⟨σ, .error failure, none⟩
  | .ok file =>
    if file.holds then
      match saveAs c imaging file s.screen.pixels with
      | .error failure => ⟨σ, .error failure, none⟩
      | .ok saved => ⟨σ.tell "INFO" ("Screenshot saved: " ++ file.display), .ok 0, some saved⟩
    else ⟨σ, .ok 0, none⟩

/-- Prints the last screen as the machine shows it, and saves it if asked to. -/
def finish (m : Machine) (c : Config) (imaging : Imaging) (σ : Session) (s : State) : Outcome :=
  match m.render imaging s with
  | .error failure => ⟨σ, .error failure, none⟩
  | .ok view =>
    savePicture c imaging { σ with journal := σ.journal.write (view.print imaging) } s

def runFrames (m : Machine) (c : Config) (frames : Setting) (σ : Session) (s : State) :
    Session × Except Failure State :=
  match c.progress with
  | .error failure => (σ, .error failure)
  | .ok progress => m.runFor frames progress.holds σ s

/-- Runs a machine from its start. -/
def run (m : Machine) (c : Config) (imaging : Imaging) (σ : Session) : Outcome :=
  match m.reset, c.frames with
  | .error failure, _ | _, .error failure => ⟨σ, .error failure, none⟩
  | .ok fresh, .ok frames =>
    match runFrames m c frames σ fresh with
    | (σ, result) =>
      let σ := σ.report (.runEnd frames (.number σ.executed))
      match result with
      | .ok s => finish m c imaging σ s
      | .error (.fault _) => ⟨σ, .ok 1, none⟩
      | .error failure => ⟨σ, .error failure, none⟩

end Chip8.Headless
