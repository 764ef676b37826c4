import Chip8.Setting

/-! # Nested lists

The lengths of nested lists along their axes. Lists are regular if all those on
one axis have the same length and hold either lists only or no list.
-/

namespace Chip8.Setting

def commonPrefix : List Nat → List Nat → List Nat
  | a :: as, b :: bs => if a = b then a :: commonPrefix as bs else []
  | _, _ => []

def stack (length : Nat) : List (List Nat × Bool) → List Nat × Bool
  | [] => ([length], true)
  | first :: rest =>
    (length :: rest.foldl (fun common item => commonPrefix common item.1) first.1,
      first.2 && rest.all (· == first))

mutual

/-- The lengths along the axes as far as all lists agree, and whether they do to the end. -/
def shape : Setting → List Nat × Bool
  | list items => stack items.length (itemShapes items)
  | _ => ([], true)

def itemShapes : List Setting → List (List Nat × Bool)
  | [] => []
  | v :: items => v.shape :: itemShapes items

end

mutual

def leaves : Setting → List Setting
  | list items => itemLeaves items
  | v => [v]

def itemLeaves : List Setting → List Setting
  | [] => []
  | v :: items => v.leaves ++ itemLeaves items

end

end Chip8.Setting
