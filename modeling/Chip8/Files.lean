import Chip8.Failure

/-! # Files

Paths, the access to files that a run is given, and trees of files, in which a
path is followed step by step.
-/

namespace Chip8

/-! ## Paths -/

def pathSteps (path : String) : List String := (path.toList.splitOn '/').map String.ofList

def pathParts (path : String) : List String :=
  (pathSteps path).filter fun part => part != "" && part != "."

def pathRoot (path : String) : String :=
  if path.startsWith "//" && !path.startsWith "///" then "//"
  else if path.startsWith "/" then "/"
  else ""

/-- A path as seen from a directory. Steps back are kept. -/
def resolvePath (directory path : String) : String :=
  if path.startsWith "/" then pathRoot path ++ "/".intercalate (pathParts path)
  else "/".intercalate (directory :: pathParts path)

/-! ## Access -/

structure Files where
  read : String → Except Failure (List UInt8)
  write : String → Except Failure Unit

/-! ## Trees -/

/-- The files and some folders of a tree, by their absolute paths. -/
structure Tree where
  home : String
  folders : List String := []
  files : List (String × List UInt8) := []

inductive Place where
  | folder (path : String)
  | file (path : String) (bytes : List UInt8)
  | vacant (path : String)
  deriving DecidableEq, Repr, Inhabited

namespace Tree

def known (t : Tree) : List String := t.home :: t.folders ++ t.files.map Prod.fst

def entry (t : Tree) (path : String) : Place :=
  match t.files.lookup path with
  | some bytes => .file path bytes
  | none =>
    let isFolder := path = t.home ∨ path ∈ t.folders ∨ t.known.any (·.startsWith (path ++ "/"))
    if isFolder then .folder path else .vacant path

def parent (path : String) : String := "/".intercalate (pathSteps path).dropLast

def visit (t : Tree) (whole : String) (place : Place) (part : String) : Except Failure Place :=
  match place with
  | .vacant _ => .error (.missingFile whole)
  | .file .. => .error (.notFolder whole)
  | .folder path =>
    if part = "" ∨ part = "." then .ok (.folder path)
    else if part = ".." then .ok (.folder (parent path))
    else if 255 < part.utf8ByteSize then .error (.longName whole)
    else .ok (t.entry (path ++ "/" ++ part))

def fromHome (t : Tree) (path : String) : Option String :=
  if path = t.home then some ""
  else (path.dropPrefix? (t.home ++ "/")).map (·.toString)

def follow (t : Tree) (path : String) : Except Failure Place :=
  if path = "" then .error (.missingFile path)
  else if 4095 < path.utf8ByteSize then .error (.longName path)
  else
    match t.fromHome path with
    | some rest => (pathSteps rest).foldlM (t.visit path) (.folder t.home)
    | none =>
      let start := if path.startsWith "/" then "" else t.home
      (pathSteps path).foldlM (t.visit path) (.folder start)

def read (t : Tree) (path : String) : Except Failure (List UInt8) := do
  if path.toList.contains '\x00' then throw (.nullInPath true)
  match ← t.follow path with
  | .file _ bytes => return bytes
  | .folder _ => throw (.isFolder path)
  | .vacant _ => throw (.missingFile path)

def write (t : Tree) (path : String) : Except Failure Unit := do
  if path.toList.contains '\x00' then throw (.nullInPath false)
  match ← t.follow path with
  | .folder _ => throw (.isFolder path)
  | _ => return ()

def empty (home : String) : Tree := { home }

def put (t : Tree) (path : String) (bytes : List UInt8) : Tree :=
  match t.follow path with
  | .ok (.file path _) | .ok (.vacant path) => { t with files := (path, bytes) :: t.files }
  | _ => t

def isFile (t : Tree) (path : String) : Bool :=
  match t.follow path with
  | .ok (.file ..) => true
  | _ => false

def access (t : Tree) : Files := ⟨t.read, t.write⟩

end Tree

end Chip8
