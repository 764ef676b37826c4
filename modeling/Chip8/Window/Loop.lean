import Chip8.Machine.Run
import Chip8.Window.Canvas
import Chip8.Window.Keyboard

/-! # The window

The interactive loop: each frame takes its events, runs the machine unless it is
paused, sets the buzzer and draws. A fault pauses the loop, and a loop that is
asked to quit finishes its frame first.
-/

namespace Chip8.Window

/-- How a window is set up. -/
structure Config where
  scale : Setting := .number 10
  inspect : Bool := false
  audio : Except String Nat := .ok 2
  measured : Setting := .number 60
  font : Font

/-- The loop between two frames. -/
structure Loop where
  session : Session
  state : State
  pace : Quantity
  running : Bool := true
  paused : Bool := false
  beeping : Bool := false
  fault : Option Fault := none
  inspect : Bool
  latest : Option State := none

/-- What is seen of a frame: the loop after it and the calls made in it. -/
structure Frame where
  loop : Loop
  calls : List Call

namespace Loop

def tellPace (l : Loop) : Loop :=
  { l with session :=
      l.session.tell "INFO" ("Speed: " ++ l.pace.display ++ " instructions per frame") }

def obey (fresh : State) (l : Loop) : Command → Loop
  | .quit => { l with running := false }
  | .pause => { l with paused := !l.paused, fault := none }
  | .inspect => { l with inspect := !l.inspect }
  | .reset =>
    { l with
      state := fresh, fault := none, paused := false, session := l.session.tell "INFO" "Reset" }
  | .faster => { l with pace := (Quantity.whole 100).min (l.pace.plus 3) }.tellPace
  | .slower => { l with pace := (Quantity.whole 1).max (l.pace.plus (-3)) }.tellPace

def setKey (l : Loop) (key : String) (down : Bool) : Loop :=
  match keypadKey? key with
  | some k => { l with state := l.state.setKey k down }
  | none => l

def handle (fresh : State) (l : Loop) : Event → Loop
  | .quit => { l with running := false }
  | .press key =>
    match command? key with
    | some c => l.obey fresh c
    | none => l.setKey key true
  | .release key => l.setKey key false
  | .focusLost => { l with state := l.state.releaseKeys }
  | .other => l

/-- Runs one frame of the machine unless the loop is paused. -/
def advance (m : Machine) (l : Loop) : Except Failure Loop :=
  if l.paused then .ok l
  else do
    let (session, state, fault) := m.cycles (← Machine.timesOf l.pace) l.session l.state
    let latest := if session.executed = l.session.executed then l.latest else some state
    match fault with
    | none => return { l with session, state := state.tick, latest }
    | some f => return { l with session, state, latest, fault := some f, paused := true }

def wantsBeep (l : Loop) : Bool := l.state.isSounding && !l.paused

def beepCalls (l : Loop) : List Call :=
  if l.wantsBeep && !l.beeping then [.play (-1)]
  else if !l.wantsBeep && l.beeping then [.stop]
  else []

def upNext (l : Loop) : String :=
  if l.state.waiting.isSome then "waiting for key"
  else
    match l.state.peek with
    | .ok i => i.text l.state.dialect.jumpsByX
    | .error f => f.message

def showRate (measured : Setting) : Except Failure String :=
  match measured, measured.quantity? with
  | .text _, _ => .error .notDecimal
  | _, some q => Failure.ofRange (q.fixed? 1)
  | _, none => .error .unsuitable

def overlayLines (c : Config) (l : Loop) : Except Failure (List String) := do
  return [String.ofList (l.state.dump.toList.take 34),
    "Next: " ++ l.upNext,
    "IPF: " ++ l.pace.display ++ "  FPS: " ++ (← showRate c.measured)]

def standstill (l : Loop) : String :=
  match l.fault with
  | some f => "FAULT: " ++ f.message
  | none => "PAUSED - P to resume"

def drawCalls (c : Config) (scheme : Scheme) (l : Loop) : Except Failure (List Call) := do
  let screen ← paint c.scale scheme l.state.screen
  let lines ← if l.inspect then (l.overlayLines c).map (overlay c.font) else pure []
  let line ← if l.paused then (banner c.scale l.standstill).map ([·]) else pure []
  return screen ++ lines ++ line

/-- One frame with its events: the loop after it and the calls made in it. -/
def frame (m : Machine) (c : Config) (scheme : Scheme) (fresh : State) (l : Loop)
    (events : List Event) : Loop × Except Failure (List Call) :=
  let l := events.foldl (handle fresh) l
  match l.advance m with
  | .error failure => (l, .error failure)
  | .ok l =>
    let sound := c.audio.toBool
    let beeps := if sound then l.beepCalls else []
    let l := { l with beeping := sound && l.wantsBeep }
    (l, (l.drawCalls c scheme).map fun calls => .clock m.fps :: beeps ++ calls)

end Loop

structure Show where
  frames : List Frame
  session : Session
  failure : Option Failure

namespace Loop

/-- Frames until the loop is asked to quit; after the last list of events it is asked to. -/
def frames (m : Machine) (c : Config) (scheme : Scheme) (fresh : State) :
    Loop → List (List Event) → Show
  | l, [] =>
    match l.frame m c scheme fresh [.quit] with
    | (l, .error failure) => ⟨[], l.session, some failure⟩
    | (l, .ok calls) => ⟨[⟨l, calls⟩], l.session, none⟩
  | l, events :: rest =>
    match l.frame m c scheme fresh events with
    | (l, .error failure) => ⟨[], l.session, some failure⟩
    | (l, .ok calls) =>
      if l.running then
        let later := l.frames m c scheme fresh rest
        { later with frames := ⟨l, calls⟩ :: later.frames }
      else ⟨[⟨l, calls⟩], l.session, none⟩

end Loop

/-- What is seen of a window: the calls around the loop, the frames, and why it closed early. -/
structure Outcome where
  setup : List Setup
  frames : List Frame
  session : Session
  failure : Option Failure

def Loop.start (c : Config) (session : Session) (fresh : State) (pace : Quantity) : Loop where
  session := session.tell "INFO" "Controls: ESC=Quit, P=Pause, F5=Reset, +/-=Speed, F1=Debug"
  state := fresh
  pace
  inspect := c.inspect

def opening (scale : Setting) : Except Failure Setup := do
  return .mode (← (Setting.number 64).product scale) (← (Setting.number 32).product scale)

def runOpen (m : Machine) (c : Config) (session : Session) (setup : List Setup)
    (script : List (List Event)) : Outcome :=
  match Scheme.ofSetting m.scheme with
  | .error failure => ⟨setup, [], session, some failure⟩
  | .ok scheme =>
    let (sound, session) : List Setup × Session := match c.audio with
      | .ok channels => ([.mixer Tone.rate (-16), .sound channels], session)
      | .error reason =>
        ([], session.tell "WARNING" ("Audio unavailable, running muted: " ++ reason))
    match m.reset, m.pace with
    | .error failure, _ | _, .error failure => ⟨setup ++ sound, [], session, some failure⟩
    | .ok fresh, .ok pace =>
      let shown := (Loop.start c session fresh pace).frames m c scheme fresh script
      let closing := if shown.failure.isSome then [] else [.quit]
      ⟨setup ++ sound ++ closing, shown.frames, shown.session, shown.failure⟩

/-- Opens a window on a machine and runs it through a script of events. -/
def run (m : Machine) (c : Config) (session : Session) (script : List (List Event)) : Outcome :=
  match opening c.scale with
  | .error failure => ⟨[.init], [], session, some failure⟩
  | .ok mode =>
    runOpen m c session [.init, mode, .caption ("Chix8 - " ++ m.path.getD "program")] script

end Chip8.Window
