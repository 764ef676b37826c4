import Chip8.Failure
import Chip8.Instruction.Word

/-! # Mnemonics

The name and the assembly pattern of each operation, and the text of an
instruction. A pattern mixes literal text with places for the operand fields of
the word. An offset jump names the register that its dialect adds.
-/

namespace Chip8

/-- The kinds of instruction. -/
inductive Operation where
  | system | clearScreen | ret | jump | call
  | skipEqByte | skipNeByte | skipEq | setByte | addByte
  | set | or | and | xor | add | sub | shiftRight | subFrom | shiftLeft
  | skipNe | setIndex | jumpOffset | random | draw | skipKey | skipNotKey
  | getDelay | waitKey | setDelay | setSound | addIndex | glyph | digits
  | storeRegisters | loadRegisters
  deriving DecidableEq, Repr, Inhabited

/-- A part of an assembly pattern. -/
inductive Piece where
  | text (s : String)
  | x | y | n | nn | nnn
  deriving DecidableEq, Repr

namespace Piece

def template : Piece → String
  | text s => s
  | x => "\x7bx\x7d"
  | y => "\x7by\x7d"
  | n => "\x7bn\x7d"
  | nn => "\x7bnn\x7d"
  | nnn => "\x7bnnn\x7d"

def fill (w : UInt16) : Piece → String
  | text s => s
  | x => Text.hex 1 (Word.x w)
  | y => Text.hex 1 (Word.y w)
  | n => toString (Word.n w).val
  | nn => "0x" ++ Text.hex 2 (Word.nn w).toNat
  | nnn => "0x" ++ Text.hex 3 (Word.nnn w)

end Piece

namespace Operation

def all : List Operation :=
  [system, clearScreen, ret, jump, call, skipEqByte, skipNeByte, skipEq, setByte, addByte,
    set, or, and, xor, add, sub, shiftRight, subFrom, shiftLeft, skipNe, setIndex, jumpOffset,
    random, draw, skipKey, skipNotKey, getDelay, waitKey, setDelay, setSound, addIndex, glyph,
    digits, storeRegisters, loadRegisters]

def name : Operation → String
  | system => "SYSTEM"
  | clearScreen => "CLEAR_SCREEN"
  | ret => "RETURN"
  | jump => "JUMP"
  | call => "CALL"
  | skipEqByte => "SKIP_IF_EQUAL_IMMEDIATE"
  | skipNeByte => "SKIP_IF_NOT_EQUAL_IMMEDIATE"
  | skipEq => "SKIP_IF_EQUAL_REGISTER"
  | setByte => "SET_IMMEDIATE"
  | addByte => "ADD_IMMEDIATE"
  | set => "SET_REGISTER"
  | or => "OR"
  | and => "AND"
  | xor => "XOR"
  | add => "ADD_REGISTER"
  | sub => "SUBTRACT"
  | shiftRight => "SHIFT_RIGHT"
  | subFrom => "SUBTRACT_REVERSED"
  | shiftLeft => "SHIFT_LEFT"
  | skipNe => "SKIP_IF_NOT_EQUAL_REGISTER"
  | setIndex => "SET_INDEX"
  | jumpOffset => "JUMP_WITH_OFFSET"
  | random => "RANDOM"
  | draw => "DRAW"
  | skipKey => "SKIP_IF_KEY"
  | skipNotKey => "SKIP_IF_NOT_KEY"
  | getDelay => "GET_DELAY_TIMER"
  | waitKey => "WAIT_FOR_KEY"
  | setDelay => "SET_DELAY_TIMER"
  | setSound => "SET_SOUND_TIMER"
  | addIndex => "ADD_TO_INDEX"
  | glyph => "FONT_CHARACTER"
  | digits => "BCD"
  | storeRegisters => "STORE_REGISTERS"
  | loadRegisters => "LOAD_REGISTERS"

/-- The assembly pattern of an operation. -/
def pattern : Operation → List Piece
  | system => [.text "SYS ", .nnn]
  | clearScreen => [.text "CLS"]
  | ret => [.text "RET"]
  | jump => [.text "JP ", .nnn]
  | call => [.text "CALL ", .nnn]
  | skipEqByte => [.text "SE V", .x, .text ", ", .nn]
  | skipNeByte => [.text "SNE V", .x, .text ", ", .nn]
  | skipEq => [.text "SE V", .x, .text ", V", .y]
  | setByte => [.text "LD V", .x, .text ", ", .nn]
  | addByte => [.text "ADD V", .x, .text ", ", .nn]
  | set => [.text "LD V", .x, .text ", V", .y]
  | or => [.text "OR V", .x, .text ", V", .y]
  | and => [.text "AND V", .x, .text ", V", .y]
  | xor => [.text "XOR V", .x, .text ", V", .y]
  | add => [.text "ADD V", .x, .text ", V", .y]
  | sub => [.text "SUB V", .x, .text ", V", .y]
  | shiftRight => [.text "SHR V", .x, .text ", V", .y]
  | subFrom => [.text "SUBN V", .x, .text ", V", .y]
  | shiftLeft => [.text "SHL V", .x, .text ", V", .y]
  | skipNe => [.text "SNE V", .x, .text ", V", .y]
  | setIndex => [.text "LD I, ", .nnn]
  | jumpOffset => [.text "JP V0, ", .nnn]
  | random => [.text "RND V", .x, .text ", ", .nn]
  | draw => [.text "DRW V", .x, .text ", V", .y, .text ", ", .n]
  | skipKey => [.text "SKP V", .x]
  | skipNotKey => [.text "SKNP V", .x]
  | getDelay => [.text "LD V", .x, .text ", DT"]
  | waitKey => [.text "LD V", .x, .text ", K"]
  | setDelay => [.text "LD DT, V", .x]
  | setSound => [.text "LD ST, V", .x]
  | addIndex => [.text "ADD I, V", .x]
  | glyph => [.text "LD F, V", .x]
  | digits => [.text "LD B, V", .x]
  | storeRegisters => [.text "LD [I], V", .x]
  | loadRegisters => [.text "LD V", .x, .text ", [I]"]

def template (op : Operation) : String := String.join (op.pattern.map Piece.template)

end Operation

def Arith.operation : Arith → Operation
  | set => .set
  | or => .or
  | and => .and
  | xor => .xor
  | add => .add
  | sub => .sub
  | shiftRight => .shiftRight
  | subFrom => .subFrom
  | shiftLeft => .shiftLeft

namespace Instruction

def operation : Instruction → Operation
  | system _ => .system
  | clearScreen => .clearScreen
  | ret => .ret
  | jump _ => .jump
  | call _ => .call
  | skipEqByte .. => .skipEqByte
  | skipNeByte .. => .skipNeByte
  | skipEq .. => .skipEq
  | setByte .. => .setByte
  | addByte .. => .addByte
  | arith op _ _ => op.operation
  | skipNe .. => .skipNe
  | setIndex _ => .setIndex
  | jumpOffset _ => .jumpOffset
  | random .. => .random
  | draw .. => .draw
  | skipKey _ => .skipKey
  | skipNotKey _ => .skipNotKey
  | getDelay _ => .getDelay
  | waitKey _ => .waitKey
  | setDelay _ => .setDelay
  | setSound _ => .setSound
  | addIndex _ => .addIndex
  | glyph _ => .glyph
  | digits _ => .digits
  | storeRegisters _ => .storeRegisters
  | loadRegisters _ => .loadRegisters

def pattern (jumpsByX : Bool) (i : Instruction) : List Piece :=
  match i with
  | jumpOffset _ => if jumpsByX then [.text "JP V", .x, .text ", ", .nnn] else i.operation.pattern
  | _ => i.operation.pattern

def text (jumpsByX : Bool) (i : Instruction) : String :=
  String.join ((i.pattern jumpsByX).map (Piece.fill i.word))

def listingLine (jumpsByX : Bool) (w : Int) : String :=
  match decode w with
  | .ok i => Text.hexInt 4 w ++ " " ++ i.operation.name ++ " " ++ i.text jumpsByX
  | .error e => "! " ++ e.message

def wordsBetween (start stop step : Int) : List Int :=
  let count :=
    if 0 < step then (stop - start + step - 1) / step
    else if step < 0 then (start - stop - step - 1) / -step
    else 0
  (List.range count.toNat).map fun (i : Nat) => start + step * i

/-- The listing of the words between two bounds. -/
def listing (jumpsByX : Bool) (start stop step : Int) : List String :=
  (wordsBetween start stop step).map (listingLine jumpsByX)

def listing? (jumpsByX : Bool) (start stop step : Int) : Except Failure (List String) :=
  if step = 0 then .error .zeroStep else .ok (listing jumpsByX start stop step)

end Instruction

end Chip8
