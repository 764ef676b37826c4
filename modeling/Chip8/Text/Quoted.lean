import Chip8.Text.Hexadecimal
import Chip8.Text.Printable

/-! # Quoted text

A text between quotes. Single quotes are used unless the text holds one and no
double quote; what cannot be printed is written by its code.
-/

namespace Chip8.Text

def quoteFor (cs : List Char) : Char := if cs.contains '\'' && !cs.contains '"' then '"' else '\''

def codeOf (width : Nat) (c : Char) : List Char := (hex width c.toNat).toList.map Char.toLower

def escape (quote : Char) (c : Char) : List Char :=
  if c = quote ∨ c = '\\' then ['\\', c]
  else if c = '\n' then ['\\', 'n']
  else if c = '\r' then ['\\', 'r']
  else if c = '\t' then ['\\', 't']
  else if isPrintable c then [c]
  else if c.toNat < 0x100 then '\\' :: 'x' :: codeOf 2 c
  else if c.toNat < 0x10000 then '\\' :: 'u' :: codeOf 4 c
  else '\\' :: 'U' :: codeOf 8 c

/-- A text between quotes. -/
def quoted (s : String) : String :=
  let cs := s.toList
  let quote := quoteFor cs
  String.ofList (quote :: (cs.flatMap (escape quote) ++ [quote]))

end Chip8.Text
