import Chip8.Setting.Grammar
import Chip8.Setting.Update

/-! # Resolving references

Texts with references in the tables and lists of a root, and the values that they
stand for. A path starts at the root, or with dots at the container that holds
the text and further out. References that lead back to themselves have no value.
-/

namespace Chip8

namespace Node

def ofRoot (root : Setting) : Node := ⟨root, [], []⟩

def child? (n : Node) (key : String) : Except Failure (Option Node) :=
  let child (v : Setting) : Node := ⟨v, n.path ++ [key], n.value :: n.around⟩
  match n.value with
  | .table entries => .ok ((entries.lookup key).map child)
  | .list items =>
    match Setting.indexOf? key with
    | none => .error .unsuitable
    | some i => .ok (if i < 0 then none else items[i.toNat]?.map child)
  | _ => .error (.notTable key)

def outer? (n : Node) (steps : Nat) : Option Node :=
  match n.around.drop steps with
  | container :: around => some ⟨container, n.path.take around.length, around⟩
  | [] => none

/-- Follows names through what they lead to. If that is done strictly, it must not be open. -/
def select (resolve : Node → Except Failure Node) (strict : Bool) :
    List String → Node → Except Failure (Option Node)
  | [], n => .ok (some n)
  | name :: names, n => do
    match ← n.child? name with
    | none => return none
    | some child =>
      if strict && child.value = Setting.unset then throw (.missingSetting name)
      select resolve strict names (← resolve child)

def find (resolve : Node → Except Failure Node) (strict : Bool) (root : Setting) (n : Node)
    (path : String) : Except Failure (Option Node) := do
  let dots := (path.toList.takeWhile (· == '.')).length
  let names := String.ofList (path.toList.drop dots)
  let start ←
    match dots with
    | 0 => pure (ofRoot root)
    | dots + 1 => (n.outer? dots).elim (.error (.missingEntry path)) .ok
  select resolve strict (if names = "" then [] else splitPath names) start

def encloses (container n : Node) : Bool := container.path.isPrefixOf n.path.dropLast

end Node

/-! ## Functions -/

namespace Reference

def tableAt (find : Bool → String → Except Failure (Option Node)) (path : Setting) :
    Except Failure (String × Settings) := do
  match path with
  | .text path =>
    match ← find true path with
    | some ⟨.table entries, _, _⟩ => return (path, entries)
    | _ => throw (.failedReference path)
  | v => throw (.failedReference v.display)

def valuesOf (path : String) (entries : Settings) : Setting :=
  let path := if path.startsWith "." then "." ++ path else path
  .list (entries.map fun (name, _) => .text ("$\x7b" ++ path ++ "." ++ name ++ "\x7d"))

def apply (find : Bool → String → Except Failure (Option Node))
    (decode : String → Except Failure Node) (here : Setting → Node) (function : String)
    (arguments : List Setting) : Except Failure Node :=
  match function, arguments with
  | "oc.env", [.text _, .absent] => .ok (here .absent)
  | "oc.env", [.text _, default] => .ok (here (.text default.display))
  | "oc.decode", [.absent] => .ok (here .absent)
  | "oc.decode", [.text s] => decode s
  | "oc.create", [v] => if v.isContainer then .ok (here v) else .error .unsuitable
  | "oc.dict.keys", [path] => do
    let (_, entries) ← tableAt find path
    return here (.list (entries.map fun entry => .text entry.1))
  | "oc.dict.values", [path] => do
    let (path, entries) ← tableAt find path
    return here (valuesOf path entries)
  | "oc.select", .text path :: rest => do
    if 1 < rest.length then throw .unsuitable
    match find false path with
    | .ok (some n) => return if n.value = Setting.unset then here (rest.headD .absent) else n
    | .ok none | .error (.notTable _) => return here (rest.headD .absent)
    | .error failure => throw failure
  | "oc.deprecated", .text path :: rest =>
    match rest, find false path with
    | [], .ok (some n) | [.text _], .ok (some n) => .ok n
    | _, .error failure => .error failure
    | _, _ => .error (.failedReference path)
  | name, _ =>
    let known :=
      ["oc.env", "oc.decode", "oc.create", "oc.dict.keys", "oc.dict.values", "oc.select",
       "oc.deprecated"]
    .error (if name ∈ known then .failedReference name else .unknownFunction name)

end Reference

/-! ## Values -/

namespace Node

def isOpen (s : String) : Bool := 1 < (s.splitOn "$\x7b").length

def isWellFormed (s : String) : Bool := !isOpen s || (Term.ofText? s).isSome

def failureOf : Failure → Failure
  | .missingReference name => .missingReference name
  | .unresolvedReference name => .unresolvedReference name
  | .failedReference name => .failedReference name
  | .unknownFunction name => .unknownFunction name
  | failure => .failedReference failure.describe

/-- What the references of a value are replaced by. What comes out is not looked at again. -/
def resolveIn (scope : Node → Term.Scope) (n : Node) : Except Failure Node :=
  match n.value with
  | .text s =>
    if isOpen s then
      match Term.ofText? s with
      | none => .error (.malformedReference s)
      | some term =>
        match term.eval (scope n) with
        | .error failure => .error (failureOf failure)
        | .ok result =>
          match result.value with
          | .text t => if isWellFormed t then .ok result else .error (.malformedReference t)
          | _ => .ok result
    else .ok n
  | _ => .ok n

def scope (root : Setting) : Nat → Node → Term.Scope
  | 0, n => {
    here := fun v => { n with value := v }
    find := fun path => .error (.failedReference path)
    apply := fun name _ => .error (.failedReference name) }
  | depth + 1, n =>
    let here (v : Setting) : Node := { n with value := v }
    let find (strict : Bool) (path : String) :=
      n.find (resolveIn (scope root depth)) strict root path
    let decode (s : String) : Except Failure Node :=
      match Term.ofArgument? s with
      | some term => term.eval (scope root depth n)
      | none => .error (.malformedReference s)
    { here
      find := fun path =>
        match find true path with
        | .ok (some target) =>
          if target.encloses n then .error (.failedReference path) else .ok target
        | .ok none | .error (.missingEntry _) => .error (.unresolvedReference path)
        | .error (.missingSetting name) => .error (.missingReference name)
        | .error failure => .error failure
      apply := Reference.apply find decode here }

def depthOf (root : Setting) : Nat := root.texts.foldl (fun n text => n + text.length) 1

/-- A value with its references replaced. -/
def resolve (root : Setting) (n : Node) : Except Failure Node :=
  resolveIn (scope root (depthOf root)) n

end Node

end Chip8
