/-! # Paths of settings

The names that lead from a table to a value in it. A path is written with dots
between the names or with brackets around them.
-/

namespace Chip8

def laterNames (length : Nat) (cs : List Char) : List String :=
  match length, cs with
  | 0, _ | _, [] => []
  | length + 1, '.' :: cs =>
    let name := cs.takeWhile fun c => c != '.' && c != '['
    String.ofList name :: laterNames length (cs.drop name.length)
  | length + 1, '[' :: cs =>
    let name := cs.takeWhile fun c => c != ']' && c != '\n'
    if cs[name.length]? = some ']' then
      String.ofList name :: laterNames length (cs.drop (name.length + 1))
    else laterNames length cs
  | length + 1, _ :: cs => laterNames length cs

/-- The names of a path. Each dot at the start gives an empty name. -/
def splitPath (path : String) : List String :=
  let cs := path.toList
  let dots := (cs.takeWhile (· == '.')).map fun _ => ""
  let cs := cs.drop dots.length
  let first := cs.takeWhile fun c => c != '.' && c != '['
  let rest := cs.drop first.length
  let start := if first.isEmpty && rest.head? == some '[' then [] else [String.ofList first]
  dots ++ start ++ laterNames rest.length rest

end Chip8
