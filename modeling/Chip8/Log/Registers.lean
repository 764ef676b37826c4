import Chip8.State

/-! # The register dump

One line with the program counter, the index, the stack depth, the timers and
the registers.
-/

namespace Chip8

def registerEntry (x : Nat) (value : UInt8) : String :=
  "V" ++ Text.hex 1 x ++ "=" ++ Text.hex 2 value.toNat

def registerEntries (registers : List UInt8) : String :=
  " ".intercalate (registers.mapIdx registerEntry)

/-- The registers in one line. -/
def State.dump (s : State) : String :=
  "PC=" ++ Text.hex 3 s.pc.toNat ++ " I=" ++ Text.hex 3 s.index.toNat ++
  " SP=" ++ toString s.stack.depth ++ " DT=" ++ toString s.delay.toNat ++
  " ST=" ++ toString s.sound.toNat ++ " | " ++ registerEntries s.registers.toList

end Chip8
