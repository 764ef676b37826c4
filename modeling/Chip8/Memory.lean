import Chip8.Fault

/-! # Memory

Four kibibytes of bytes. Every access names a range, and a range that leaves
`0x000`–`0xFFF` is a fault before any byte is read or written.
-/

namespace Chip8

/-- The addressable bytes. -/
structure Memory where
  bytes : Vector UInt8 4096
  deriving DecidableEq

namespace Memory

def size : Nat := 4096

def programStart : Nat := 0x200

def maxProgram : Nat := size - programStart

def zero : Memory := ⟨Vector.replicate 4096 0⟩

/-- The byte at an address, zero outside memory. -/
def byte (m : Memory) (a : Nat) : UInt8 := m.bytes[a]?.getD 0

def set (m : Memory) (a : Nat) (b : UInt8) : Memory := ⟨m.bytes.setIfInBounds a b⟩

def slice (m : Memory) (start count : Nat) : List UInt8 :=
  (List.range count).map fun i => m.byte (start + i)

def store (m : Memory) (a : Nat) : List UInt8 → Memory
  | [] => m
  | b :: bs => (m.set a b).store (a + 1) bs

/-- Refuses a range that starts below zero or ends past the last byte. -/
def checkRange (address length : Int) : Except Fault Unit :=
  if address < 0 ∨ size < address + length then .error (.outOfBounds address length) else .ok ()

/-- Reads a range; an end below zero is counted back from the end of memory. -/
def read (m : Memory) (address length : Int) : Except Fault (List UInt8) := do
  checkRange address length
  let stop := address + length
  let stop := if stop < 0 then stop + size else stop
  return m.slice address.toNat (stop - address).toNat

def write (m : Memory) (address : Int) (bytes : List UInt8) : Except Fault Memory := do
  checkRange address bytes.length
  return m.store address.toNat bytes

def word (m : Memory) (a : Nat) : UInt16 :=
  UInt16.ofNat (256 * (m.byte a).toNat + (m.byte (a + 1)).toNat)

def readWord (m : Memory) (address : Int) : Except Fault UInt16 := do
  checkRange address 2
  return m.word address.toNat

def load (m : Memory) (program : List UInt8) : Except Fault Memory :=
  if maxProgram < program.length then .error (.outOfBounds programStart program.length)
  else m.write programStart program

theorem checkRange_eq_ok_iff {a n : Int} : checkRange a n = .ok () ↔ 0 ≤ a ∧ a + n ≤ 4096 := by
  unfold checkRange size
  split <;> simp <;> omega

theorem checkRange_natCast (a n : Nat) :
    checkRange a n = if size < a + n then .error (.outOfBounds a n) else .ok () := by
  unfold checkRange size
  split <;> split <;> first | rfl | omega

theorem read_natCast (m : Memory) (a n : Nat) :
    m.read a n = if size < a + n then .error (.outOfBounds a n) else .ok (m.slice a n) := by
  unfold read
  rw [checkRange_natCast]
  split
  · rfl
  · have hstop : ¬ ((a : Int) + n < 0) := by omega
    have hcount : ((a : Int) + n - a).toNat = n := by omega
    simp only [bind, Except.bind, pure, Except.pure, hstop, if_false, hcount, Int.toNat_natCast]

theorem write_natCast (m : Memory) (a : Nat) (bs : List UInt8) :
    m.write a bs =
      if size < a + bs.length then .error (.outOfBounds a bs.length) else .ok (m.store a bs) := by
  unfold write
  rw [checkRange_natCast]
  split <;> rfl

theorem readWord_natCast (m : Memory) (a : Nat) :
    m.readWord a = if size < a + 2 then .error (.outOfBounds a 2) else .ok (m.word a) := by
  unfold readWord
  rw [show (2 : Int) = (2 : Nat) from rfl, checkRange_natCast]
  split <;> rfl

@[simp] theorem byte_set (m : Memory) (a c : Nat) (b : UInt8) :
    (m.set a b).byte c = if a = c ∧ c < 4096 then b else m.byte c := by
  simp only [byte, set, Vector.getElem?_setIfInBounds]
  grind

theorem byte_store (m : Memory) (a : Nat) (bs : List UInt8) (c : Nat) :
    (m.store a bs).byte c =
      if a ≤ c ∧ c < a + bs.length ∧ c < 4096 then bs[c - a]?.getD 0 else m.byte c := by
  induction bs generalizing m a with
  | nil => simp [store]; omega
  | cons b bs ih =>
    rw [store, ih, byte_set]
    rcases Nat.lt_trichotomy c a with h | h | h
    · grind
    · grind
    · obtain ⟨k, rfl⟩ : ∃ k, c = a + 1 + k := ⟨c - (a + 1), by omega⟩
      have hk : a + 1 + k - a = k + 1 := by omega
      simp [hk]
      grind

theorem byte_store_of_outside (m : Memory) {a c : Nat} {bs : List UInt8}
    (h : c < a ∨ a + bs.length ≤ c) : (m.store a bs).byte c = m.byte c := by
  rw [byte_store, if_neg (by omega)]

@[simp] theorem byte_zero (a : Nat) : zero.byte a = 0 := by
  simp only [byte, zero, Vector.getElem?_replicate]
  split <;> rfl

theorem length_slice (m : Memory) (start count : Nat) : (m.slice start count).length = count := by
  simp [slice]

theorem getElem?_slice (m : Memory) (start count i : Nat) :
    (m.slice start count)[i]? = if i < count then some (m.byte (start + i)) else none := by
  simp only [slice, List.getElem?_map]
  split <;> simp_all

theorem eq_of_byte {m m' : Memory} (h : ∀ a < 4096, m.byte a = m'.byte a) : m = m' := by
  obtain ⟨bytes⟩ := m
  obtain ⟨bytes'⟩ := m'
  congr 1
  apply Vector.ext
  intro a ha
  simpa [byte, ha] using h a ha

theorem slice_store (m : Memory) (a : Nat) (bs : List UInt8) (h : a + bs.length ≤ 4096) :
    (m.store a bs).slice a bs.length = bs := by
  apply List.ext_getElem?
  intro i
  rw [getElem?_slice]
  split
  · rename_i hi
    rw [byte_store, if_pos (by omega), Nat.add_sub_cancel_left, List.getElem?_eq_getElem hi]
    rfl
  · rename_i hi
    exact (List.getElem?_eq_none (Nat.le_of_not_lt hi)).symm

theorem slice_store_of_outside (m : Memory) {a start n : Nat} {bs : List UInt8}
    (h : start + n ≤ a ∨ a + bs.length ≤ start) :
    (m.store a bs).slice start n = m.slice start n := by
  refine List.map_congr_left fun i hi => ?_
  have hi := List.mem_range.mp hi
  exact byte_store_of_outside m (by omega)

theorem store_slice (m : Memory) (a n : Nat) : m.store a (m.slice a n) = m := by
  apply eq_of_byte
  intro c hc
  rw [byte_store, length_slice]
  split
  · rename_i hin
    rw [getElem?_slice, if_pos (by omega), Option.getD_some, Nat.add_sub_cancel' hin.1]
  · rfl

theorem store_append (m : Memory) (a : Nat) (bs cs : List UInt8) :
    m.store a (bs ++ cs) = (m.store a bs).store (a + bs.length) cs := by
  induction bs generalizing m a with
  | nil => rfl
  | cons b bs ih =>
    rw [List.cons_append, store, ih, store, List.length_cons, Nat.add_assoc, Nat.add_comm 1]

theorem store_store (m : Memory) (a : Nat) (bs cs : List UInt8) :
    (m.store a bs).store a cs = m.store a (cs ++ bs.drop cs.length) := by
  apply eq_of_byte
  intro c hc
  simp only [byte_store, List.length_append, List.length_drop]
  rcases Nat.lt_or_ge c a with hlt | hle
  · rw [if_neg (by omega), if_neg (by omega), if_neg (by omega)]
  · obtain ⟨k, rfl⟩ := Nat.exists_eq_add_of_le hle
    rw [Nat.add_sub_cancel_left]
    rcases Nat.lt_or_ge k cs.length with hk | hk
    · rw [if_pos (by omega), if_pos (by omega), List.getElem?_append_left hk]
    · have hrest : a ≤ a + k ∧ a + k < a + bs.length ∧ a + k < 4096 ↔
          a ≤ a + k ∧ a + k < a + (cs.length + (bs.length - cs.length)) ∧ a + k < 4096 := by
        omega
      rw [if_neg (by omega), List.getElem?_append_right hk, List.getElem?_drop,
        Nat.add_sub_cancel' hk]
      simp only [hrest]

theorem slice_add (m : Memory) (a n k : Nat) :
    m.slice a (n + k) = m.slice a n ++ m.slice (a + n) k := by
  simp only [slice, List.range_add, List.map_append, List.map_map]
  congr 2
  funext i
  simp [Nat.add_assoc]

theorem take_drop_slice (m : Memory) (a : Nat) {n i k : Nat} (h : i + k ≤ n) :
    ((m.slice a n).drop i).take k = m.slice (a + i) k := by
  obtain ⟨rest, rfl⟩ := Nat.exists_eq_add_of_le h
  rw [slice_add, slice_add, List.append_assoc, List.drop_left' (m.length_slice a i),
    List.take_left' (m.length_slice (a + i) k)]

end Memory

end Chip8
