import Chip8.Setting.Literal
import Chip8.Setting.Term

/-! # The grammar of references

A reference opens with a dollar sign and a brace and ends with a brace. It is a
path, or the name of a function with its arguments behind a colon; an argument is
a word, a quoted text, a list or a table, and all of these can hold references.
Backslashes keep a mark from being read as one. A parser gives what it reads from
the start of a text, and the rest; it takes a bound on the number of its steps.
-/

namespace Chip8.Grammar

/-! ## Characters -/

def isSpace (c : Char) : Bool := c == ' ' || c == '\t'

def skipSpaces (cs : List Char) : List Char := cs.dropWhile isSpace

def isKeyChar (c : Char) : Bool := "\\\x7b\x7d()[]:. \t'\"".toList.all (· != c)

def isWordChar (c : Char) : Bool := c.isAlphanum || "_/-\\+.$%*@?|: \t".toList.contains c

def isEscapable (c : Char) : Bool := "\\()[]\x7b\x7d:=, \t".toList.contains c

def isName (s : String) : Bool :=
  match s.toList with
  | c :: cs => (c.isAlpha || c == '_') && cs.all fun c => c.isAlphanum || c == '_' || c == '-'
  | [] => false

def isFunction (path : List Term) : Bool :=
  path.all fun part =>
    match part with
    | .value (.text s) => s == "." || isName s
    | _ => true

/-! ## Words and texts -/

/-- The characters of a word up to what ends it. Spaces in front of a mark do not belong to it. -/
def word (marks : List Char) : List Char → List Char × List Char
  | '$' :: '\x7b' :: cs => ([], '$' :: '\x7b' :: cs)
  | '\\' :: c :: cs =>
    if isEscapable c then ((word marks cs).map (c :: ·) id)
    else (word marks (c :: cs)).map ('\\' :: ·) id
  | c :: cs =>
    let spaces := isSpace c && (skipSpaces cs).head?.any (· ∈ marks)
    if spaces || c ∈ marks || !isWordChar c then ([], c :: cs)
    else (word marks cs).map (c :: ·) id
  | [] => ([], [])

def termOfWord (pieces : List Term) : Term :=
  let text? : Term → Option String
    | .value (.text s) => some s
    | _ => none
  match pieces.mapM text?, pieces with
  | some texts, _ => .value (.ofWord (String.join texts))
  | none, [piece] => piece
  | none, pieces => .join pieces

def textOf (cs : List Char) : Term := .text (String.ofList cs)

/-! ## Parsers -/

mutual

def reference (fuel : Nat) (cs : List Char) : Option (Term × List Char) :=
  match fuel with
  | 0 => none
  | fuel + 1 => do
    let cs := skipSpaces cs
    let dots := cs.takeWhile (· == '.')
    let (path, cs) ← path fuel (cs.drop dots.length)
    match skipSpaces cs with
    | '\x7d' :: cs => some (.reference (dots.map (fun _ => .text ".") ++ path), cs)
    | ':' :: cs =>
      if dots.isEmpty && isFunction path then
        let (arguments, cs) ← items fuel '\x7d' (skipSpaces cs)
        return (.call path arguments, cs)
      else none
    | _ => none

def path (fuel : Nat) (cs : List Char) : Option (List Term × List Char) :=
  match fuel with
  | 0 => none
  | fuel + 1 =>
    if cs.head? = some '[' then keys fuel cs
    else do
      let (first, cs) ← key fuel cs
      let (rest, cs) ← keys fuel cs
      return (first :: rest, cs)

def keys (fuel : Nat) (cs : List Char) : Option (List Term × List Char) :=
  match fuel, cs with
  | 0, _ => none
  | fuel + 1, '.' :: cs => do
    let (key, cs) ← key fuel cs
    let (rest, cs) ← keys fuel cs
    return (.text "." :: key :: rest, cs)
  | fuel + 1, '[' :: cs => do
    let (key, cs) ← key fuel cs
    if cs.head? ≠ some ']' then none
    let (rest, cs) ← keys fuel (cs.drop 1)
    return (.text "[" :: key :: .text "]" :: rest, cs)
  | _ + 1, cs => some ([], cs)

def key (fuel : Nat) (cs : List Char) : Option (Term × List Char) :=
  match fuel, cs with
  | 0, _ => none
  | fuel + 1, '$' :: '\x7b' :: cs => reference fuel cs
  | _ + 1, cs =>
    let name := cs.takeWhile isKeyChar
    if name.isEmpty then none else some (textOf name, cs.drop name.length)

def items (fuel : Nat) (close : Char) (cs : List Char) : Option (List Term × List Char) :=
  match fuel with
  | 0 => none
  | fuel + 1 =>
    if cs.head? = some close then some ([], cs.drop 1) else laterItems fuel close cs

def laterItems (fuel : Nat) (close : Char) (cs : List Char) : Option (List Term × List Char) :=
  match fuel with
  | 0 => none
  | fuel + 1 => do
    let isEmpty := cs.head? = some ',' ∨ cs.head? = some close
    let (item, cs) ← if isEmpty then pure (.text "", cs) else item fuel cs
    match skipSpaces cs with
    | ',' :: cs =>
      let (rest, cs) ← laterItems fuel close (skipSpaces cs)
      return (item :: rest, cs)
    | c :: cs => if c = close then some ([item], cs) else none
    | [] => none

def entries (fuel : Nat) (cs : List Char) : Option (List (String × Term) × List Char) :=
  match fuel with
  | 0 => none
  | fuel + 1 => do
    let (name, cs) := word [':'] (skipSpaces cs)
    match skipSpaces cs with
    | ':' :: cs =>
      if name.isEmpty then none
      let (item, cs) ← item fuel (skipSpaces cs)
      match skipSpaces cs with
      | ',' :: cs =>
        let (rest, cs) ← entries fuel cs
        return ((String.ofList name, item) :: rest, cs)
      | '\x7d' :: cs => some ([(String.ofList name, item)], cs)
      | _ => none
    | _ => none

def item (fuel : Nat) (cs : List Char) : Option (Term × List Char) :=
  match fuel, cs with
  | 0, _ => none
  | fuel + 1, '\'' :: cs => (content fuel (some '\'') cs).map (·.map .join id)
  | fuel + 1, '"' :: cs => (content fuel (some '"') cs).map (·.map .join id)
  | fuel + 1, '[' :: cs => (items fuel ']' (skipSpaces cs)).map (·.map .list id)
  | fuel + 1, '\x7b' :: cs =>
    match skipSpaces cs with
    | '\x7d' :: cs => some (.table [], cs)
    | cs => (entries fuel cs).map (·.map .table id)
  | fuel + 1, cs => do
    let (pieces, rest) ← pieces fuel cs
    let blank := (cs.take (cs.length - rest.length)).all isSpace
    if blank then none else some (termOfWord pieces, rest)

def pieces (fuel : Nat) (cs : List Char) : Option (List Term × List Char) :=
  match fuel with
  | 0 => none
  | fuel + 1 =>
    let (start, rest) := word [',', ']', '\x7d'] cs
    let start := if start.isEmpty then [] else [textOf start]
    match rest with
    | '$' :: '\x7b' :: cs => do
      let (term, cs) ← reference fuel cs
      let (rest, cs) ← pieces fuel cs
      return (start ++ term :: rest, cs)
    | rest => some (start, rest)

def content (fuel : Nat) (quote : Option Char) (cs : List Char) : Option (List Term × List Char) :=
  match fuel, cs with
  | 0, _ => none
  | _ + 1, [] => if quote.isSome then none else some ([], [])
  | fuel + 1, '$' :: '\x7b' :: cs => do
    let (term, cs) ← reference fuel cs
    let (rest, cs) ← content fuel quote cs
    return (term :: rest, cs)
  | fuel + 1, '\\' :: cs => do
    let slashes := '\\' :: cs.takeWhile (· == '\\')
    let half := slashes.take (slashes.length / 2)
    let isOdd := slashes.length % 2 = 1
    match cs.dropWhile (· == '\\') with
    | '$' :: '\x7b' :: rest =>
      if isOdd then
        let (more, rest) ← content fuel quote rest
        return (textOf half :: .text "$\x7b" :: more, rest)
      else
        let (more, rest) ← content fuel quote ('$' :: '\x7b' :: rest)
        return (textOf half :: more, rest)
    | c :: rest =>
      if quote ≠ some c then
        let (more, rest) ← content fuel quote (c :: rest)
        return (textOf slashes :: more, rest)
      else if isOdd then
        let (more, rest) ← content fuel quote rest
        return (textOf half :: textOf [c] :: more, rest)
      else some ([textOf half], rest)
    | [] => if quote.isSome then none else some ([textOf slashes], [])
  | fuel + 1, c :: cs =>
    if quote = some c then some ([], cs)
    else do
      let (rest, cs) ← content fuel quote cs
      return (textOf [c] :: rest, cs)

end

/-- A bound that no text reaches: a character takes four steps at most. -/
def fuelOf (cs : List Char) : Nat := 4 * cs.length + 8

end Grammar

namespace Term

/-- The meaning of a text, in which references are replaced. -/
def ofText? (s : String) : Option Term :=
  match Grammar.content (Grammar.fuelOf s.toList) none s.toList with
  | some ([.value v], []) => some (.value v)
  | some ([term], []) => some term
  | some (pieces, []) => some (.join pieces)
  | _ => none

def ofArgument? (s : String) : Option Term :=
  match Grammar.item (Grammar.fuelOf s.toList) s.toList with
  | some (term, []) => some term
  | _ => none

end Term

end Chip8
