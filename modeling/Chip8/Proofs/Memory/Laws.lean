import Chip8.Memory
import Chip8.State.Values

/-! # Memory as an array

Reads and writes that stay in memory obey the laws of arrays: what is read back is
what was written last, and writes that do not meet can be exchanged. A write that
leaves memory is refused, and before that one with a value that is no byte.
-/

namespace Chip8

namespace Memory

variable {m : Memory} {a b c n i : Nat} {v w : List UInt8}

def InRange (a n c : Nat) : Prop := a ≤ c ∧ c < a + n

instance (a n c : Nat) : Decidable (InRange a n c) := inferInstanceAs (Decidable (_ ∧ _))

/-! ## Stores -/

theorem byte_store_of_inRange (h : InRange a v.length c) (hc : c < 4096) :
    (m.store a v).byte c = v[c - a]?.getD 0 := by
  rw [byte_store, if_pos ⟨h.1, h.2, hc⟩]

theorem byte_store_of_not_inRange (h : ¬ InRange a v.length c) :
    (m.store a v).byte c = m.byte c := by
  unfold InRange at h
  exact byte_store_of_outside m (by omega)

theorem getElem?_slice_store (hi : i < n) (hn : b + n ≤ 4096) :
    ((m.store a v).slice b n)[i]? =
      if InRange a v.length (b + i) then v[b + i - a]? else some (m.byte (b + i)) := by
  rw [getElem?_slice, if_pos hi]
  split
  · rename_i h
    have hget : b + i - a < v.length := by
      obtain ⟨hle, hlt⟩ := h
      omega
    rw [byte_store_of_inRange h (by omega), List.getElem?_eq_getElem hget]
    rfl
  · rename_i h
    rw [byte_store_of_not_inRange h]

theorem store_comm (h : ∀ c, InRange a v.length c → ¬ InRange b w.length c) :
    (m.store a v).store b w = (m.store b w).store a v := by
  apply eq_of_byte
  intro c hc
  by_cases ha : InRange a v.length c
  · rw [byte_store_of_not_inRange (h c ha), byte_store_of_inRange ha hc,
      byte_store_of_inRange ha hc]
  · rw [byte_store_of_not_inRange (v := v) ha]
    by_cases hb : InRange b w.length c
    · rw [byte_store_of_inRange hb hc, byte_store_of_inRange hb hc]
    · rw [byte_store_of_not_inRange hb, byte_store_of_not_inRange hb, byte_store_of_not_inRange ha]

theorem store_store_of_covers (h : ∀ c, InRange a v.length c → InRange b w.length c) :
    (m.store a v).store b w = m.store b w := by
  apply eq_of_byte
  intro c hc
  by_cases hb : InRange b w.length c
  · rw [byte_store_of_inRange hb hc, byte_store_of_inRange hb hc]
  · rw [byte_store_of_not_inRange hb, byte_store_of_not_inRange hb,
      byte_store_of_not_inRange (mt (h c) hb)]

/-! ## Checked access -/

theorem write_of_fits (h : a + v.length ≤ 4096) : m.write a v = .ok (m.store a v) := by
  rw [write_natCast, size, if_neg (Nat.not_lt.mpr h)]

theorem write_eq_error_iff {a : Int} :
    m.write a v = .error (.outOfBounds a v.length) ↔ a < 0 ∨ 4096 < a + v.length := by
  unfold write checkRange size
  split <;> simp_all [bind, Except.bind, pure, Except.pure]

theorem exists_read_eq_slice (m : Memory) {n : Int} (hb : b ≤ 4096) (hn : b + n ≤ 4096) :
    ∃ k : Nat, m.read b n = .ok (m.slice b k) ∧ b + k ≤ 4096 ∧ (0 ≤ n → (k : Int) = n) := by
  have hcheck : checkRange b n = .ok () := checkRange_eq_ok_iff.mpr ⟨Int.natCast_nonneg b, hn⟩
  unfold read
  rw [hcheck]
  refine ⟨_, rfl, ?_, ?_⟩ <;> simp only [size] <;> split <;> omega

theorem exists_read_write (m : Memory) (h : a + v.length ≤ 4096) :
    ∃ m', m.write a v = .ok m' ∧ ∀ (b : Nat) (n : Int), b ≤ 4096 → b + n ≤ 4096 →
      ∃ bytes, m'.read b n = .ok bytes ∧ (0 ≤ n → (bytes.length : Int) = n) ∧
        ∀ i < bytes.length, bytes[i]? =
          if InRange a v.length (b + i) then v[b + i - a]? else some (m.byte (b + i)) := by
  refine ⟨m.store a v, write_of_fits h, fun b n hb hn => ?_⟩
  obtain ⟨k, hread, hk, hlength⟩ := exists_read_eq_slice (m.store a v) hb hn
  refine ⟨_, hread, ?_⟩
  rw [length_slice]
  exact ⟨hlength, fun i hi => getElem?_slice_store hi hk⟩

theorem read_bind_write (m : Memory) {n : Int} (hb : b ≤ 4096) (hn : b + n ≤ 4096) :
    (m.read b n).bind (m.write b) = .ok m := by
  obtain ⟨k, hread, hk, -⟩ := exists_read_eq_slice m hb hn
  rw [hread, Except.bind, write_of_fits ((length_slice m b k).symm ▸ hk), store_slice]

theorem write_bind_write (hv : a + v.length ≤ 4096) (hw : b + w.length ≤ 4096) :
    (m.write a v).bind (·.write b w) = .ok ((m.store a v).store b w) := by
  rw [write_of_fits hv, Except.bind, write_of_fits hw]

theorem exists_readWord (m : Memory) (h : b + 2 ≤ 4096) :
    ∃ word, m.readWord b = .ok word ∧
      word.toNat = 256 * (m.byte b).toNat + (m.byte (b + 1)).toNat := by
  refine ⟨m.word b, ?_, ?_⟩
  · rw [readWord_natCast, size, if_neg (Nat.not_lt.mpr h)]
  · have hhigh := (m.byte b).toNat_lt
    have hlow := (m.byte (b + 1)).toNat_lt
    rw [word, UInt16.toNat_ofNat']
    omega

end Memory

/-! ## Values -/

namespace State

variable {s : State} {a : Int} {values : List Int}

def IsByte (i : Int) : Prop := 0 ≤ i ∧ i ≤ 255

instance (i : Int) : Decidable (IsByte i) := inferInstanceAs (Decidable (_ ∧ _))

theorem bytesOf_numbers (values : List Int) :
    bytesOf (values.map .number) = values.mapM fun i =>
      if IsByte i then .ok (UInt8.ofInt i) else .error .valueOutOfRange := by
  have hpresent : (values.map Setting.number).contains .absent = false := by simp
  have hbyte : ∀ i : Int, (Setting.number i).byte =
      if IsByte i then .ok (UInt8.ofInt i) else .error .valueOutOfRange := by
    intro i
    rw [Setting.byte, Setting.integer_number]
    rfl
  unfold bytesOf
  rw [hpresent, List.mapM_map]
  exact congrArg (List.mapM · values) (funext hbyte)

theorem bytesOf_of_bytes (h : ∀ i ∈ values, IsByte i) :
    bytesOf (values.map .number) = .ok (values.map UInt8.ofInt) := by
  rw [bytesOf_numbers]
  induction values with
  | nil => rfl
  | cons i values ih =>
    obtain ⟨hi, hvalues⟩ := List.forall_mem_cons.mp h
    rw [List.mapM_cons, if_pos hi, ih hvalues]
    rfl

theorem bytesOf_of_not_bytes (h : ∃ i ∈ values, ¬ IsByte i) :
    bytesOf (values.map .number) = .error .valueOutOfRange := by
  rw [bytesOf_numbers]
  induction values with
  | nil => simp at h
  | cons i values ih =>
    rw [List.mapM_cons]
    by_cases hi : IsByte i
    · have hvalues : ∃ i ∈ values, ¬ IsByte i := by simpa [hi] using h
      rw [if_pos hi, ih hvalues]
      rfl
    · rw [if_neg hi]
      rfl

theorem poke_of_bytes (h : ∀ i ∈ values, IsByte i) :
    s.poke (.number a) (values.map .number) =
      Failure.ofFault ((s.memory.write a (values.map UInt8.ofInt)).map fun m =>
        { s with memory := m }) := by
  simp only [poke, bytesOf_of_bytes h, Setting.integer_number, bind, Except.bind]
  cases s.memory.write a (values.map UInt8.ofInt) <;> rfl

theorem poke_of_not_bytes (h : ∃ i ∈ values, ¬ IsByte i) :
    s.poke (.number a) (values.map .number) = .error .valueOutOfRange := by
  rw [poke, bytesOf_of_not_bytes h]
  rfl

end State

/-! ## The laws -/

namespace Memory

open State

/-- What holds of memory as of an array, within its bounds and at them. -/
structure ArrayLaws (m : Memory) : Prop where
  read_write : ∀ (a : Nat) (v : List UInt8), a + v.length ≤ 4096 → ∃ m', m.write a v = .ok m' ∧
    ∀ (b : Nat) (n : Int), b ≤ 4096 → b + n ≤ 4096 → ∃ bytes, m'.read b n = .ok bytes ∧
      (0 ≤ n → (bytes.length : Int) = n) ∧ ∀ i < bytes.length, bytes[i]? =
        if InRange a v.length (b + i) then v[b + i - a]? else some (m.byte (b + i))
  write_read : ∀ (b : Nat) (n : Int), b ≤ 4096 → b + n ≤ 4096 →
    (m.read b n).bind (m.write b) = .ok m
  write_comm : ∀ (a b : Nat) (v w : List UInt8), a + v.length ≤ 4096 → b + w.length ≤ 4096 →
    (∀ c, InRange a v.length c → ¬ InRange b w.length c) →
    ∃ m', (m.write a v).bind (·.write b w) = .ok m' ∧ (m.write b w).bind (·.write a v) = .ok m'
  write_write : ∀ (a b : Nat) (v w : List UInt8), a + v.length ≤ 4096 → b + w.length ≤ 4096 →
    (∀ c, InRange a v.length c → InRange b w.length c) →
    ∃ m', (m.write a v).bind (·.write b w) = .ok m' ∧ m.write b w = .ok m'
  word : ∀ b : Nat, b + 2 ≤ 4096 → ∃ word, m.readWord b = .ok word ∧
    word.toNat = 256 * (m.byte b).toNat + (m.byte (b + 1)).toNat
  bounds : ∀ (a : Int) (v : List UInt8),
    m.write a v = .error (.outOfBounds a v.length) ↔ a < 0 ∨ 4096 < a + v.length
  values : ∀ (s : State) (a : Int) (values : List Int), s.memory = m →
    ((∃ i ∈ values, ¬ IsByte i) →
      s.poke (.number a) (values.map .number) = .error .valueOutOfRange) ∧
    ((∀ i ∈ values, IsByte i) →
      (a < 0 ∨ 4096 < a + values.length → s.poke (.number a) (values.map .number) =
        .error (.fault (.outOfBounds a values.length))) ∧
      ∀ m', m.write a (values.map UInt8.ofInt) = .ok m' →
        s.poke (.number a) (values.map .number) = .ok { s with memory := m' })

/-- Memory obeys the laws of arrays under bounds. -/
theorem array_laws (m : Memory) : m.ArrayLaws where
  read_write _ _ h := exists_read_write m h
  write_read _ _ hb hn := read_bind_write m hb hn
  write_comm a b v w hv hw h := by
    refine ⟨_, write_bind_write hv hw, ?_⟩
    rw [write_bind_write hw hv, store_comm h]
  write_write a b v w hv hw h := by
    refine ⟨_, write_bind_write hv hw, ?_⟩
    rw [write_of_fits hw, store_store_of_covers h]
  word _ h := exists_readWord m h
  bounds _ _ := write_eq_error_iff
  values s a values hm := by
    subst hm
    refine ⟨poke_of_not_bytes, fun h => ⟨fun hout => ?_, fun m' hm' => ?_⟩⟩
    · rw [← List.length_map (f := UInt8.ofInt)] at hout ⊢
      rw [poke_of_bytes h, write_eq_error_iff.mpr hout]
      rfl
    · rw [poke_of_bytes h, hm']
      rfl

theorem array_laws_end :
    ∃ m, zero.write (4093 : Nat) [1, 2, 3] = .ok m ∧
      (∃ bytes, m.read (4092 : Nat) 4 = .ok bytes ∧ bytes[0]? = some 0 ∧ bytes[3]? = some 3) ∧
      (zero.write (4093 : Nat) [1, 2, 3]).bind (·.write (4092 : Nat) [6, 7, 8, 9]) =
        zero.write (4092 : Nat) [6, 7, 8, 9] ∧
      (zero.write (4093 : Nat) [1, 2, 3]).bind (·.write (4092 : Nat) [6]) =
        (zero.write (4092 : Nat) [6]).bind (·.write (4093 : Nat) [1, 2, 3]) ∧
      m.write 4094 [1, 2, 3] = .error (.outOfBounds 4094 3) ∧
      ∀ s : State, s.memory = m →
        s.poke (.number 4094) ([1, 2, 256].map .number) = .error .valueOutOfRange := by
  have hlaws := array_laws zero
  obtain ⟨m, hm, hread⟩ := hlaws.read_write 4093 [1, 2, 3] (by decide)
  obtain ⟨bytes, hbytes, hlength, hget⟩ := hread 4092 4 (by decide) (by decide)
  have hlength := hlength (by decide)
  obtain ⟨m₁, hcovered, hover⟩ := hlaws.write_write 4093 4092 [1, 2, 3] [6, 7, 8, 9] (by decide)
    (by decide) fun c ⟨hle, hlt⟩ => ⟨Nat.le_of_succ_le hle, hlt⟩
  obtain ⟨m₂, hfirst, hlast⟩ := hlaws.write_comm 4093 4092 [1, 2, 3] [6] (by decide)
    (by decide) fun c ⟨hle, _⟩ ⟨_, hlt⟩ => absurd hle (Nat.not_le.mpr hlt)
  refine ⟨m, hm, ⟨bytes, hbytes, ?_, ?_⟩, hcovered.trans hover.symm, hfirst.trans hlast.symm,
    ((array_laws m).bounds _ _).mpr (by decide), fun s hs =>
      ((array_laws m).values s 4094 [1, 2, 256] hs).1 (by decide)⟩
  · rw [hget 0 (by omega), if_neg (by decide), byte_zero]
  · rw [hget 3 (by omega), if_pos (by decide)]
    rfl

end Memory

end Chip8
