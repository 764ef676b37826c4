import Chip8.Fault

/-! # Failures

Why a request outside the running machine is refused: bad values, unknown names,
missing files. A fault of the machine is one of the causes.
-/

namespace Chip8

/-- A cause for which a request is refused. -/
inductive Failure where
  | fault (fault : Fault)
  | unsuitable
  | improper
  | valueOutOfRange
  | undefinedNumber
  | divisionByZero
  | notInteger (text : String)
  | longNumeral (digits : Nat)
  | keyOutOfRange (key : Setting)
  | unknownSetting (name : String)
  | unknownName (kind name : String) (offered : List String)
  | notHexadecimal (kind : String)
  | notDecimal
  | notGrouped
  | zeroStep
  -- machines
  | ambiguousProgram
  | unsupportedRendering (name : String) (offered : List String)
  | nonpositiveRate (fps : Setting)
  | seedOutOfRange
  | missingSeed
  -- files
  | missingFile (path : String)
  | isFolder (path : String)
  | notFolder (path : String)
  | longName (path : String)
  | nullInPath (reading : Bool)
  -- pictures
  | mismatchedColor (shape : List Nat) (pixels : Nat)
  | raggedColor (shape : List Nat)
  | unknownImageFormat
  | unsupportedImageFormat
  | unwritableImage
  | unreadableImage
  | undrawnImage
  | emptyPicture
  | exhausted
  -- logs
  | namelessLevel
  | plainLogger
  | hiddenProgress
  | unknownProgressOption (name : String)
  | retiredProgressOption (name : String)
  -- layouts
  | malformedLayout
  | unknownField (name : String)
  | missingField (position : Nat)
  | missingPart (name : String)
  -- options
  | missingSetting (name : String)
  | missingEntry (name : String)
  | missingMember (name : String)
  | missingItem (index : Int)
  | missingReference (name : String)
  | unresolvedReference (name : String)
  | failedReference (name : String)
  | unknownFunction (name : String)
  | malformedReference (text : String)
  | mismatchedTable (name : String)
  | notTable (name : String)
  deriving DecidableEq, Repr, Inhabited

def quotedList (names : List String) : String :=
  "[" ++ ", ".intercalate (names.map fun name => "'" ++ name ++ "'") ++ "]"

namespace Failure

def shapeText (separator : String) : List Nat → String
  | [n] => s!"({n},)"
  | shape => "(" ++ separator.intercalate (shape.map toString) ++ ")"

def message? : Failure → Option String
  | fault f => some f.message
  | undefinedNumber => some "cannot convert float NaN to integer"
  | notInteger text =>
    some ("invalid literal for int() with base 10: " ++ ((Text.quoted text).take 200).toString)
  | longNumeral digits =>
    some (s!"Exceeds the limit (4300 digits) for integer string conversion: value has {digits} " ++
      "digits; use sys.set_int_max_str_digits() to increase the limit")
  | keyOutOfRange key => some ("Key index must be in 0-15, got " ++ key.display)
  | unknownName kind name offered =>
    some s!"Unknown {kind} '{name}'. Available: {quotedList offered}"
  | notHexadecimal kind => some s!"Unknown format code 'X' for object of type '{kind}'"
  | notDecimal => some "Unknown format code 'f' for object of type 'str'"
  | notGrouped => some "Cannot specify ',' with 's'."
  | ambiguousProgram => some "Provide exactly one of rom_path or rom_data"
  | unsupportedRendering name offered =>
    some s!"Unsupported render_mode '{name}'. Supported modes: {quotedList offered}"
  | nonpositiveRate fps => some ("fps must be positive, got " ++ fps.display)
  | nullInPath true => some "embedded null byte"
  | mismatchedColor shape pixels =>
    some ("shape mismatch: value array of shape " ++ shapeText "," shape ++
      s!" could not be broadcast to indexing result of shape ({pixels},3)")
  | raggedColor shape =>
    some ("setting an array element with a sequence. The requested array has an inhomogeneous " ++
      s!"shape after {shape.length} dimensions. The detected shape was " ++
      shapeText ", " shape ++ " + inhomogeneous part.")
  | _ => none

def describe (failure : Failure) : String :=
  match failure.message?, failure with
  | some text, _ => text
  | none, unknownSetting name => s!"Unknown setting '{name}'"
  | none, unknownProgressOption name => s!"Unknown option '{name}'"
  | none, retiredProgressOption name => s!"Option '{name}' is no longer supported"
  | none, seedOutOfRange | none, missingSeed => "Seed out of range"
  | none, divisionByZero => "Division by zero"
  | none, missingFile path => s!"No such file: {path}"
  | none, isFolder path => s!"Is a folder: {path}"
  | none, notFolder path => s!"Not a folder: {path}"
  | none, longName path => s!"File name too long: {path}"
  | none, nullInPath _ => "Bad file name"
  | none, unknownImageFormat | none, unsupportedImageFormat | none, unwritableImage =>
    "Unknown image format"
  | none, unreadableImage | none, undrawnImage => "The picture cannot be read back"
  | none, emptyPicture => "Empty picture"
  | none, exhausted => "Out of memory"
  | none, namelessLevel => "A level is a text"
  | none, plainLogger => "This logger takes messages only"
  | none, hiddenProgress => "The progress is hidden"
  | none, malformedLayout => "Malformed layout"
  | none, unknownField name => s!"Unknown field: {name}"
  | none, missingField position => s!"No field at position {position}"
  | none, missingPart name => s!"No such part: {name}"
  | none, missingSetting name => s!"No value given: {name}"
  | none, missingEntry name | none, missingMember name => s!"No such entry: {name}"
  | none, missingItem index => s!"No such item: {index}"
  | none, missingReference name => s!"No value given for the reference to {name}"
  | none, unresolvedReference name => s!"Unknown reference: {name}"
  | none, failedReference name => s!"Reference without a value: {name}"
  | none, unknownFunction name => s!"Unknown function: {name}"
  | none, malformedReference text => s!"Malformed reference: {text}"
  | none, mismatchedTable name => s!"A list and a table cannot be joined: {name}"
  | none, notTable name => s!"Not a table: {name}"
  | none, unsuitable | none, improper => "Unsuitable value"
  | none, _ => "Value out of range"

end Failure

def Failure.ofFault {α : Type} : Except Fault α → Except Failure α
  | .ok a => .ok a
  | .error f => .error (.fault f)

def Settings.checkNames (table : Settings) (known : List String) : Except Failure Unit :=
  match table.find? fun entry => entry.1 ∉ known with
  | some (name, _) => .error (.unknownSetting name)
  | none => .ok ()

def Failure.ofRange {α : Type} : Option α → Except Failure α
  | some a => .ok a
  | none => .error .valueOutOfRange

end Chip8
