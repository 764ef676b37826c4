import Chip8.Proofs.Run.Reach
import Mathlib.Algebra.Group.Nat.Defs
import Mathlib.Data.List.Induction

/-! # The last store

Memory changes by two instructions only, each of which stores to a range of
addresses from the index on. So along a run a byte is what the last store to its
address left there, or what it was at the start.
-/

namespace Chip8

namespace Execution

def extent (e : Execution) : Nat :=
  match e.instruction with
  | .digits _ => 3
  | .storeRegisters x => x.val + 1
  | _ => 0

/-- The address is in the range to which the execution stores. -/
def StoresTo (e : Execution) (a : Nat) : Prop :=
  e.before.index.toNat ≤ a ∧ a < e.before.index.toNat + e.extent

instance (e : Execution) (a : Nat) : Decidable (e.StoresTo a) :=
  inferInstanceAs (Decidable (_ ∧ _))

/-- The byte that the execution stores `k` places behind the index. -/
def storedByte (e : Execution) (k : Nat) : UInt8 :=
  match e.instruction with
  | .digits x => UInt8.ofNat ((e.before.reg x).toNat / 10 ^ (2 - k) % 10)
  | .storeRegisters _ => e.before.reg (Fin.ofNat 16 k)
  | _ => 0

/-- What executions leave of a byte: what the last of them that stores to its address puts there. -/
def byteAfter (start : UInt8) (history : List Execution) (a : Nat) : UInt8 :=
  match (history.filter fun e => decide (e.StoresTo a)).getLast? with
  | some e => e.storedByte (a - e.before.index.toNat)
  | none => start

variable {start : UInt8} {history : List Execution} {a k : Nat} {s : State} {i : Instruction}

theorem byteAfter_concat (e : Execution) :
    byteAfter start (history ++ [e]) a =
      if e.StoresTo a then e.storedByte (a - e.before.index.toNat)
      else byteAfter start history a := by
  unfold byteAfter
  rw [List.filter_append, List.getLast?_append]
  by_cases h : e.StoresTo a <;> simp [h]

/-! ## One execution -/

theorem length_stored : (i.stored s.advance).length = extent ⟨s, i⟩ := by
  cases i with
  | digits x => rfl
  | storeRegisters x => exact Instruction.length_stored_registers s.advance x
  | _ => rfl

theorem getElem?_decimalDigits (b : UInt8) (hk : k < 3) :
    (decimalDigits b)[k]?.getD 0 = UInt8.ofNat (b.toNat / 10 ^ (2 - k) % 10) := by
  have hb := b.toNat_lt
  apply UInt8.toNat_inj.mp
  rw [UInt8.toNat_ofNat']
  match k with
  | 0 =>
    have hd : ((decimalDigits b)[0]?.getD 0).toNat = b.toNat / 100 := by simp [decimalDigits]
    omega
  | 1 =>
    have hd : ((decimalDigits b)[1]?.getD 0).toNat = b.toNat / 10 % 10 := by simp [decimalDigits]
    omega
  | 2 =>
    have hd : ((decimalDigits b)[2]?.getD 0).toNat = b.toNat % 10 := by simp [decimalDigits]
    omega

theorem getElem?_stored (hk : k < extent ⟨s, i⟩) :
    (i.stored s.advance)[k]?.getD 0 = storedByte ⟨s, i⟩ k := by
  cases i with
  | digits x => exact getElem?_decimalDigits (s.reg x) hk
  | storeRegisters x =>
    have hx : k < x.val + 1 := hk
    have hr : (Fin.ofNat 16 k).val = k := Nat.mod_eq_of_lt (by omega)
    have hle : Fin.ofNat 16 k ≤ x := by
      rw [Fin.le_def, hr]
      omega
    have hget := Instruction.getElem?_stored_registers s.advance hle
    rw [hr] at hget
    rw [hget]
    rfl
  | _ => exact absurd hk (Nat.not_lt_zero _)

theorem StoresTo.lt (h : StoresTo ⟨s, i⟩ a) (hf : i.fault? s.advance = none) : a < 4096 := by
  obtain ⟨hle, hlt⟩ := h
  cases i with
  | digits x | storeRegisters x =>
    simp only [Instruction.fault?, State.windowFault?, State.advance_index, ite_eq_right_iff,
      reduceCtorEq, imp_false, Nat.not_lt] at hf
    simp only [extent] at hlt
    omega
  | _ => exact absurd hlt (Nat.not_lt.mpr hle)

theorem digits_storedByte {x : Register} :
    (∀ k < 3, (storedByte ⟨s, .digits x⟩ k).toNat ≤ 9) ∧
      100 * (storedByte ⟨s, .digits x⟩ 0).toNat + 10 * (storedByte ⟨s, .digits x⟩ 1).toNat +
        (storedByte ⟨s, .digits x⟩ 2).toNat = (s.reg x).toNat := by
  have hb := (s.reg x).toNat_lt
  simp only [storedByte, UInt8.toNat_ofNat']
  refine ⟨fun k _ => ?_, ?_⟩
  · have := Nat.mod_lt ((s.reg x).toNat / 10 ^ (2 - k)) (by decide : 0 < 10)
    omega
  · omega

end Execution

namespace State

variable {s t u : State} {i : Instruction} {x : Stimulus} {xs : List Stimulus} {a : Nat}

theorem byte_after (ha : a < 4096) :
    (i.after s.advance).memory.byte a =
      if Execution.StoresTo ⟨s, i⟩ a then Execution.storedByte ⟨s, i⟩ (a - s.index.toNat)
      else s.memory.byte a := by
  rw [Instruction.after_memory, Memory.byte_store, Execution.length_stored, advance_index,
    advance_memory]
  by_cases h : s.index.toNat ≤ a ∧ a < s.index.toNat + Execution.extent ⟨s, i⟩
  · have hs : Execution.StoresTo ⟨s, i⟩ a := h
    rw [if_pos ⟨h.1, h.2, ha⟩, if_pos hs]
    exact Execution.getElem?_stored (by omega)
  · have hs : ¬ Execution.StoresTo ⟨s, i⟩ a := h
    rw [if_neg fun h' => h ⟨h'.1, h'.2.1⟩, if_neg hs]

/-- The bytes of a run are those of its start after its executions. -/
theorem byte_follow (h : s.follow xs = .ok t) (ha : a < 4096) :
    t.memory.byte a = Execution.byteAfter (s.memory.byte a) (s.history xs) a := by
  -- from the right: a store forgets every execution before it
  induction xs using List.reverseRecOn generalizing t with
  | nil =>
    cases follow_nil.mp h
    rfl
  | append_singleton xs x ih =>
    obtain ⟨u, hu, ht⟩ := follow_concat.mp h
    rw [history_concat hu]
    rcases respond_cases ht with ⟨i, hi, -, rfl⟩ | ⟨hi, hsame⟩
    · rw [hi, Option.map_some, Option.toList_some, Execution.byteAfter_concat, ← ih hu]
      exact byte_after ha
    · rw [hi, Option.map_none, Option.toList_none, List.append_nil, ← ih hu, hsame.memory]

theorem memory_respond (h : s.respond x = .ok t) (hd : ∀ r, s.executed? x ≠ some (.digits r))
    (hr : ∀ r, s.executed? x ≠ some (.storeRegisters r)) : t.memory = s.memory := by
  rcases respond_cases h with ⟨i, hi, -, rfl⟩ | ⟨-, hsame⟩
  · rw [hi] at hd hr
    rw [Instruction.after_memory]
    cases i with
    | digits r => exact absurd rfl (hd r)
    | storeRegisters r => exact absurd rfl (hr r)
    | _ => rfl
  · exact hsame.memory

theorem memory_fetch {w : UInt16} (h : s.fetch = .ok (w, t)) : t.memory = s.memory := by
  obtain ⟨v, -, h⟩ := exists_of_bind_eq_ok h
  cases h
  rfl

theorem storesTo_lt_of_mem_history {e : Execution} (h : s.follow xs = .ok t)
    (he : e ∈ s.history xs) (ha : e.StoresTo a) : a < 4096 := by
  obtain ⟨hd, u, hu⟩ := exists_step_of_mem_history h he
  rcases step_eq_ok_iff.mp hu with ⟨hw, -⟩ | ⟨i, hi, hf, -⟩
  · exact absurd (due?_eq_some_iff.mp hd).1 hw
  · obtain rfl : e.instruction = i := Option.some.inj (hd.symm.trans hi)
    exact ha.lt hf

/-- The law of the last store. Every byte of a run is what the last store to its address put there,
or its value at the start; no range of a store runs past the end of memory, the digits that are
stored are those of the register, and neither a fetch nor any other move changes memory. -/
theorem memory_last_store (h : s.follow xs = .ok t) :
    (∀ a < 4096, t.memory.byte a = Execution.byteAfter (s.memory.byte a) (s.history xs) a) ∧
    (∀ e ∈ s.history xs, (∀ a, e.StoresTo a → a < 4096) ∧
      ∀ r, e.instruction = .digits r → (∀ k < 3, (e.storedByte k).toNat ≤ 9) ∧
        100 * (e.storedByte 0).toNat + 10 * (e.storedByte 1).toNat + (e.storedByte 2).toNat =
          (e.before.reg r).toNat) ∧
    (∀ (u v : State) x, u.respond x = .ok v → (∀ r, u.executed? x ≠ some (.digits r)) →
      (∀ r, u.executed? x ≠ some (.storeRegisters r)) → v.memory = u.memory) ∧
    ∀ (u v : State) w, u.fetch = .ok (w, v) → v.memory = u.memory := by
  refine ⟨fun a ha => byte_follow h ha, fun e he => ⟨fun a ha => ?_, ?_⟩,
    fun u v x hv hd hr => memory_respond hv hd hr, fun u v w hv => memory_fetch hv⟩
  · exact storesTo_lt_of_mem_history h he ha
  · obtain ⟨v, i⟩ := e
    rintro r rfl
    exact Execution.digits_storedByte

theorem memory_last_store_overlap :
    ∃ s t, (Machine.ofProgram [0x60, 0xFE, 0xA3, 0x00, 0xF0, 0x33, 0xF1, 0x55]).reset = .ok s ∧
      s.follow [.cycle, .cycle, .tick, .cycle, .cycle] = .ok t ∧
      t.memory.byte 0x300 = 254 ∧ t.memory.byte 0x302 = 4 ∧
      ∀ a < 4096, t.memory.byte a = Execution.byteAfter (s.memory.byte a)
        (s.history [.cycle, .cycle, .tick, .cycle, .cycle]) a := by
  have hrun : ((Machine.ofProgram
      [0x60, 0xFE, 0xA3, 0x00, 0xF0, 0x33, 0xF1, 0x55]).reset.toOption.any fun s =>
        (s.follow [.cycle, .cycle, .tick, .cycle, .cycle]).toOption.any fun t =>
          t.memory.byte 0x300 == 254 && t.memory.byte 0x302 == 4) = true := by
    decide +kernel
  obtain ⟨s, hs, hrun⟩ := exists_ok_of_any hrun
  obtain ⟨t, ht, hrun⟩ := exists_ok_of_any hrun
  simp only [Bool.and_eq_true, beq_iff_eq] at hrun
  exact ⟨s, t, hs, ht, hrun.1, hrun.2, (memory_last_store ht).1⟩

end State

end Chip8
