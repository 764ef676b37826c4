import Chip8.Arguments
import Chip8.Picture.Encode

/-! # The command line

Runs the program that the arguments name, without a window or with one that
takes its events from standard input, a line for each frame.
-/

open Chip8

def openProgram (options : Options) (directory : String) : IO Files := do
  let path := ((options.programPath directory).toOption).getD ""
  let contents : Except Failure (List UInt8) ←
    try
      pure (.ok (← IO.FS.readBinFile path).toList)
    catch _ => pure (.error (.missingFile path))
  return {
    read := fun file => if file = path then contents else .error (.missingFile file)
    write := fun _ => .ok () }

def showWindow (outcome : Window.Outcome) : IO Unit := do
  if let some frame := outcome.frames.getLast? then
    IO.println (textPicture "#" "." frame.loop.state.screen.pixels)

def explain (failure : Failure) : IO UInt32 := do
  IO.eprintln failure.describe
  return 1

def savePicture (saved : Headless.Saved) : IO UInt32 :=
  match (ImageFormat.ofPath saved.path).toOption.join.bind saved.picture.encode? with
  | some bytes => do
    IO.FS.writeBinFile saved.path bytes.toByteArray
    return 0
  | none => explain .unsupportedImageFormat

def hostOf (directory : String) (files : Files) : Options.Host where
  directory
  files
  imaging := .ofFiles (fun bytes => bytes < 0x8000000000000000)
    (fun p => s!"{p.height} x {p.width} pixels") files
  terminal := false
  now := .whole 0
  audio := .error "no loudspeaker"
  measured := .number 60
  font := .fixed 7 18

def runOptions (options : Options) : IO UInt32 := do
  let directory := (← IO.currentDir).toString
  let files ← openProgram options directory
  let windowed := options.hasWindow.toOption == some true
  let script ← if windowed then (← IO.getStdin).readToEnd else pure ""
  let outcome := options.run (hostOf directory files) (Window.scriptOfText script)
  outcome.printed.forM IO.println
  match outcome.shown with
  | .error failure => explain failure
  | .ok (.window window) =>
    showWindow window
    window.failure.elim (pure 0) explain
  | .ok (.headless exit saved) =>
    let status ← saved.elim (pure 0) savePicture
    return if exit = 0 then status else exit.toUInt32

def main (arguments : List String) : IO UInt32 :=
  match Options.ofArguments arguments with
  | .ok options => runOptions options
  | .error failure => explain failure
