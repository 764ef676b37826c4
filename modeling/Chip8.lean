import Chip8.Fault.Arguments
import Chip8.Instruction.RoundTrip
import Chip8.Main
import Chip8.Picture.Color
import Chip8.Proofs.Cycle.Faults
import Chip8.Proofs.Dialect.Lockstep
import Chip8.Proofs.Headless.Faults
import Chip8.Proofs.Headless.Outcome
import Chip8.Proofs.Instruction.Assembler
import Chip8.Proofs.Instruction.Format
import Chip8.Proofs.Log.Counter
import Chip8.Proofs.Log.Dump
import Chip8.Proofs.Log.Entries
import Chip8.Proofs.Log.Filtering
import Chip8.Proofs.Memory.Bounds
import Chip8.Proofs.Memory.LastStore
import Chip8.Proofs.Memory.Laws
import Chip8.Proofs.Memory.Loading
import Chip8.Proofs.Memory.Stream
import Chip8.Proofs.Picture.Lines
import Chip8.Proofs.Picture.Sampling
import Chip8.Proofs.Run.CallReturn
import Chip8.Proofs.Run.Countdown
import Chip8.Proofs.Run.Events
import Chip8.Proofs.Run.Flow
import Chip8.Proofs.Run.Footprint
import Chip8.Proofs.Run.Glyphs
import Chip8.Proofs.Run.Interference
import Chip8.Proofs.Run.KeyWait
import Chip8.Proofs.Run.Pace
import Chip8.Proofs.Run.Pair
import Chip8.Proofs.Run.RandomStream
import Chip8.Proofs.Run.Reports
import Chip8.Proofs.Run.Tracing
import Chip8.Proofs.Screen.Drawing
import Chip8.Proofs.Screen.Overlay
import Chip8.Proofs.Screen.Parity
import Chip8.Proofs.Screen.Strips
import Chip8.Proofs.Screen.Torus
import Chip8.Proofs.Stack.Requests
import Chip8.Proofs.Window.Buzzer
import Chip8.Proofs.Window.Frame
import Chip8.Proofs.Window.Keypad
import Chip8.Proofs.Window.Painting
import Chip8.Proofs.Window.Refinement
import Chip8.Proofs.Window.Scheduler
import Chip8.Proofs.Window.Speed
import Chip8.Proofs.Window.Standstill
import Chip8.Schedule
import Chip8.Setting.Pairs
import Chip8.State.Values
