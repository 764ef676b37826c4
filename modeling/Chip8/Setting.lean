import Chip8.Quantity
import Chip8.Text.Quoted

/-! # Settings

Values as a user gives them, and tables of such values. A program takes them as
they are, asks whether they hold or which number they stand for, and shows them
again unchanged.
-/

namespace Chip8

/-- A value of the configuration. -/
inductive Setting where
  | absent
  | flag (b : Bool)
  | number (i : Int)
  /-- A double, given by its bits. -/
  | real (bits : UInt64)
  | text (s : String)
  | list (items : List Setting)
  | table (entries : List (String × Setting))
  deriving Repr, Inhabited

namespace Setting

/-! ## Equality -/

mutual

def same : Setting → Setting → Bool
  | absent, absent => true
  | flag a, flag b => a == b
  | number a, number b => a == b
  | real a, real b => a == b
  | text a, text b => a == b
  | list a, list b => sameItems a b
  | table a, table b => sameEntries a b
  | _, _ => false

def sameItems : List Setting → List Setting → Bool
  | [], [] => true
  | a :: as, b :: bs => same a b && sameItems as bs
  | _, _ => false

def sameEntries : List (String × Setting) → List (String × Setting) → Bool
  | [], [] => true
  | (k, a) :: as, (l, b) :: bs => k == l && same a b && sameEntries as bs
  | _, _ => false

end

mutual

theorem same_self : ∀ a : Setting, same a a = true
  | absent => rfl
  | flag _ | number _ | real _ | text _ => by simp [same]
  | list items => by simp [same, sameItems_self items]
  | table entries => by simp [same, sameEntries_self entries]

theorem sameItems_self : ∀ items : List Setting, sameItems items items = true
  | [] => rfl
  | a :: as => by simp [sameItems, same_self a, sameItems_self as]

theorem sameEntries_self : ∀ entries : List (String × Setting), sameEntries entries entries = true
  | [] => rfl
  | (_, a) :: as => by simp [sameEntries, same_self a, sameEntries_self as]

end

mutual

theorem eq_of_same : ∀ {a b : Setting}, same a b = true → a = b
  | a, b, h => by
    cases a <;> cases b <;> simp only [same, beq_iff_eq, Bool.false_eq_true] at h
    · rfl
    · rw [h]
    · rw [h]
    · rw [h]
    · rw [h]
    · rw [eq_of_sameItems h]
    · rw [eq_of_sameEntries h]

theorem eq_of_sameItems : ∀ {a b : List Setting}, sameItems a b = true → a = b
  | [], [], _ => rfl
  | a :: as, b :: bs, h => by
    simp only [sameItems, Bool.and_eq_true] at h
    rw [eq_of_same h.1, eq_of_sameItems h.2]
  | [], _ :: _, h | _ :: _, [], h => by simp [sameItems] at h

theorem eq_of_sameEntries : ∀ {a b : List (String × Setting)}, sameEntries a b = true → a = b
  | [], [], _ => rfl
  | (k, a) :: as, (l, b) :: bs, h => by
    simp only [sameEntries, Bool.and_eq_true, beq_iff_eq] at h
    rw [h.1.1, eq_of_same h.1.2, eq_of_sameEntries h.2]
  | [], _ :: _, h | _ :: _, [], h => by simp [sameEntries] at h

end

instance : DecidableEq Setting := fun a b =>
  decidable_of_iff (same a b = true) ⟨eq_of_same, fun h => h ▸ same_self a⟩

/-! ## Text -/

mutual

def quoted : Setting → String
  | absent => "None"
  | flag true => "True"
  | flag false => "False"
  | number i => toString i
  | real bits => Text.shortest (Float.ofBits bits)
  | text s => Text.quoted s
  | list items => "[" ++ ", ".intercalate (quotedItems items) ++ "]"
  | table entries => "\x7b" ++ ", ".intercalate (quotedEntries entries) ++ "\x7d"

def quotedItems : List Setting → List String
  | [] => []
  | v :: items => v.quoted :: quotedItems items

def quotedEntries : List (String × Setting) → List String
  | [] => []
  | (name, v) :: entries => (Text.quoted name ++ ": " ++ v.quoted) :: quotedEntries entries

end

def display : Setting → String
  | text s => s
  | v => v.quoted

/-! ## Meaning -/

/-- Whether a value counts as yes. Nothing, zero and what is empty do not. -/
def holds : Setting → Bool
  | absent => false
  | flag b => b
  | number i => i != 0
  | real bits => Float.ofBits bits != 0
  | text s => s != ""
  | list items => !items.isEmpty
  | table entries => !entries.isEmpty

@[simp] theorem holds_flag (b : Bool) : (flag b).holds = b := rfl

/-- The integer that a value stands for; a flag stands for one or zero. -/
def whole? : Setting → Option Int
  | flag b => some (if b then 1 else 0)
  | number i => some i
  | _ => none

def quantity? : Setting → Option Quantity
  | real bits => some (.real bits)
  | v => v.whole?.map .whole

@[simp] theorem quantity?_number (i : Int) : (number i).quantity? = some (.whole i) := rfl

def atMost? (v : Setting) (bound : Int) : Option Bool := v.quantity?.map (·.le (.whole bound))

@[simp] theorem atMost?_number (i bound : Int) :
    (number i).atMost? bound = some (decide (i ≤ bound)) := rfl

def ofQuantity : Quantity → Setting
  | .whole i => number i
  | .real bits => real bits

@[simp] theorem ofQuantity_whole (i : Int) : ofQuantity (.whole i) = number i := rfl

end Setting

/-- Values under names, in the order in which the names came up. -/
abbrev Settings := List (String × Setting)

namespace Settings

def assign (table : Settings) (name : String) (value : Setting) : Settings :=
  if table.any fun entry => entry.1 == name then
    table.map fun entry => if entry.1 == name then (name, value) else entry
  else table ++ [(name, value)]

end Settings

end Chip8
