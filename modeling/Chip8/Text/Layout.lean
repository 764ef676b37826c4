/-! # Layouts

Texts with places between braces into which values go. A place has a name, which
can lead on into a value, and can ask for a conversion and for a form.
-/

namespace Chip8.Text

structure Place where
  name : List Char
  conversion : Option Char := none
  form : List Char := []
  deriving DecidableEq, Repr

def takeName (bracketed : Bool) : List Char → Option (List Char × Char × List Char)
  | [] => none
  | c :: cs =>
    if bracketed then (takeName (c != ']') cs).map fun (name, rest) => (c :: name, rest)
    else if c = '\x7b' then none
    else if c = '\x7d' ∨ c = ':' ∨ c = '!' then some ([], c, cs)
    else (takeName (c == '[') cs).map fun (name, rest) => (c :: name, rest)

def takeForm : Nat → List Char → Option (List Char × List Char)
  | _, [] => none
  | depth, c :: cs =>
    if c = '\x7d' then
      match depth with
      | 0 => some ([], cs)
      | depth + 1 => (takeForm depth cs).map fun (form, rest) => (c :: form, rest)
    else
      (takeForm (if c = '\x7b' then depth + 1 else depth) cs).map fun (form, rest) =>
        (c :: form, rest)

def takePlace (cs : List Char) : Option (Place × List Char) := do
  match ← takeName false cs with
  | (name, ':', rest) =>
    let (form, rest) ← takeForm 0 rest
    return (⟨name, none, form⟩, rest)
  | (name, '!', conversion :: '\x7d' :: rest) => return (⟨name, some conversion, []⟩, rest)
  | (name, '!', conversion :: ':' :: rest) =>
    let (form, rest) ← takeForm 0 rest
    return (⟨name, some conversion, form⟩, rest)
  | (_, '!', _) => none
  | (name, _, rest) => return (⟨name, none, []⟩, rest)

inductive Next where
  | place (before : List Char) (place : Place) (rest : List Char)
  | stop (before : List Char)
  | malformed
  deriving DecidableEq, Repr

def Next.push (c : Char) : Next → Next
  | place before p rest => .place (c :: before) p rest
  | stop before => .stop (c :: before)
  | malformed => .malformed

/-- The next place of a layout. A double brace stands for a single one. -/
def nextPlace : List Char → Next
  | [] => .stop []
  | '\x7b' :: '\x7b' :: cs => (nextPlace cs).push '\x7b'
  | '\x7d' :: '\x7d' :: cs => (nextPlace cs).push '\x7d'
  | '\x7b' :: cs =>
    match takePlace cs with
    | some (p, rest) => .place [] p rest
    | none => .malformed
  | '\x7d' :: _ => .malformed
  | c :: cs => (nextPlace cs).push c

/-! ## Forms -/

/-- What a form asks for. -/
structure Form where
  alignment : Option Char := none
  signed : Bool := false
  unsignedZero : Bool := false
  alternate : Bool := false
  grouping : Option Char := none
  places : Bool := false
  kind : Option Char := none
  deriving DecidableEq, Repr

def isAlignment (c : Char) : Bool := c == '<' || c == '>' || c == '=' || c == '^'

def takeIf (p : Char → Bool) : List Char → Option Char × List Char
  | c :: cs => if p c then (some c, cs) else (none, c :: cs)
  | [] => (none, [])

def takeAlignment : List Char → Option Char × List Char
  | fill :: c :: cs =>
    if isAlignment c then (some c, cs) else takeIf isAlignment (fill :: c :: cs)
  | cs => takeIf isAlignment cs

def Form.ofChars? (cs : List Char) : Option Form := do
  let (alignment, cs) := takeAlignment cs
  let (sign, cs) := takeIf (fun c => c == ' ' || c == '+' || c == '-') cs
  let (zero, cs) := takeIf (· == 'z') cs
  let (hash, cs) := takeIf (· == '#') cs
  let cs := cs.dropWhile Char.isDigit
  let (grouping, cs) := takeIf (fun c => c == ',' || c == '_') cs
  if grouping.isSome && (cs.head? == some ',' || cs.head? == some '_') then none
  let (point, cs) := takeIf (· == '.') cs
  let digits := cs.takeWhile Char.isDigit
  if point.isSome && digits.isEmpty then none
  let cs := if point.isSome then cs.dropWhile Char.isDigit else cs
  if 1 < cs.length then none
  return {
    alignment, signed := sign.isSome, unsignedZero := zero.isSome, alternate := hash.isSome
    grouping, places := point.isSome, kind := cs.head? }

def Form.groups (f : Form) : Bool :=
  match f.grouping, f.kind with
  | none, _ | _, none => true
  | some ',', some kind => kind ∈ ['d', 'e', 'f', 'g', 'E', 'G', '%', 'F']
  | some _, some kind => kind ∈ ['d', 'e', 'f', 'g', 'E', 'G', '%', 'F', 'b', 'o', 'x', 'X']

def Form.fitsText (f : Form) : Bool :=
  (f.kind.isNone || f.kind == some 's') && !f.signed && !f.unsignedZero && !f.alternate &&
    f.alignment != some '=' && f.grouping.isNone

def Form.fitsNumber (f : Form) (whole : Bool) : Bool :=
  let kind := f.kind.getD (if whole then 'd' else 'r')
  let pointed := kind ∈ ['e', 'E', 'f', 'F', 'g', 'G', '%'] ∨ !whole ∧ kind ∈ ['n', 'r']
  let pointless := whole ∧ kind ∈ ['b', 'c', 'd', 'o', 'x', 'X', 'n']
  f.groups && (pointed || pointless && !f.places && !f.unsignedZero &&
    !(kind == 'c' && (f.signed || f.alternate)))

end Chip8.Text
