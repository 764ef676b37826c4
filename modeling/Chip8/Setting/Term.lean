import Chip8.Failure

/-! # Terms

What a text with references means: a value, texts that are put together, or a
reference to a value by a path or by a function.
-/

namespace Chip8

/-- A value with the containers around it, the nearest one first, and the path that leads to it. -/
structure Node where
  value : Setting
  path : List String
  around : List Setting
  deriving Repr

/-- The meaning of a text. -/
inductive Term where
  | value (v : Setting)
  | join (parts : List Term)
  | reference (path : List Term)
  | call (function arguments : List Term)
  | list (items : List Term)
  | table (entries : List (String × Term))
  deriving Repr, Inhabited

namespace Term

def text (s : String) : Term := .value (.text s)

/-- What terms are evaluated with. -/
structure Scope where
  here : Setting → Node
  find : String → Except Failure Node
  apply : String → List Setting → Except Failure Node

def nameOf (parts : List Node) : Except Failure String := do
  return String.join (← parts.mapM fun part =>
    match part.value with
    | .text s => .ok s
    | v => .error (.failedReference v.display))

mutual

def eval (scope : Scope) : Term → Except Failure Node
  | value v => .ok (scope.here v)
  | join parts => do
    let parts ← evalAll scope parts
    return scope.here (.text (String.join (parts.map fun part => part.value.display)))
  | reference path => do scope.find (← nameOf (← evalAll scope path))
  | call function arguments => do
    let function ← nameOf (← evalAll scope function)
    scope.apply function ((← evalAll scope arguments).map Node.value)
  | list items => do return scope.here (.list ((← evalAll scope items).map Node.value))
  | table entries => do return scope.here (.table (← evalEntries scope entries))

def evalAll (scope : Scope) : List Term → Except Failure (List Node)
  | [] => .ok []
  | term :: terms => do return (← eval scope term) :: (← evalAll scope terms)

def evalEntries (scope : Scope) : List (String × Term) → Except Failure Settings
  | [] => .ok []
  | (name, term) :: entries => do
    return (name, (← eval scope term).value) :: (← evalEntries scope entries)

end

end Term

end Chip8
