import Chip8.Proofs.Memory.Transfer
import Mathlib.Data.List.Induction

/-! # Streams of registers

In a dialect that moves the index, stores of registers one after the other lay
them end to end, and loads from the same place find them again. The index ends
right behind the last byte, which may be the last one of memory, and the first
store that runs past it fails.
-/

namespace Chip8

open Instruction

namespace State

variable {s t : State} {x : Register} {xs : List Register}

def executeWords (s : State) (words : List Int) : Except Fault State := words.foldlM executeWord s

def miscWords (nn : Int) (xs : List Register) : List Int :=
  xs.map fun x => 0xF000 + 0x100 * x.val + nn

def span (xs : List Register) : Nat := (xs.map fun x => x.val + 1).sum

/-- The registers `V0` to `VX` for each `X` of a list, end to end. -/
def stream (s : State) (xs : List Register) : List UInt8 :=
  xs.flatMap fun x => s.registers.toList.take (x.val + 1)

/-- Each part of the list with which it begins fits between the index and the end of memory. -/
def StreamFits (s : State) (xs : List Register) : Prop :=
  ∀ n < xs.length, s.index.toNat + span (xs.take (n + 1)) ≤ 4096

instance (s : State) (xs : List Register) : Decidable (s.StreamFits xs) :=
  inferInstanceAs (Decidable (∀ n < xs.length, _))

def moved (s : State) (n : Nat) : State := { s with index := s.index + UInt16.ofNat n }

def streamed (s : State) (xs : List Register) : State :=
  { s with memory := s.memory.store s.index.toNat (s.stream xs) }.moved (span xs)

/-! ## Lists of words -/

theorem executeWords_append (s : State) (words words' : List Int) :
    s.executeWords (words ++ words') =
      (s.executeWords words).bind fun t => t.executeWords words' :=
  List.foldlM_append

theorem executeWords_cons (s : State) (w : Int) (words : List Int) :
    s.executeWords (w :: words) = (s.executeWord w).bind fun t => t.executeWords words :=
  List.foldlM_cons

theorem executeWords_concat (words : List Int) (w : Int) :
    s.executeWords (words ++ [w]) = .ok t ↔
      ∃ u, s.executeWords words = .ok u ∧ u.executeWord w = .ok t := by
  rw [executeWords_append]
  cases s.executeWords words with
  | error f => simp [Except.bind]
  | ok u =>
    rw [Except.bind, executeWords_cons]
    cases hw : u.executeWord w <;> simp [hw, Except.bind, executeWords, pure, Except.pure]

/-! ## Lists of registers -/

theorem miscWords_concat (nn : Int) (xs : List Register) (x : Register) :
    miscWords nn (xs ++ [x]) = miscWords nn xs ++ [0xF000 + 0x100 * (x.val : Int) + nn] := by
  simp [miscWords]

theorem span_nil : span [] = 0 := rfl

theorem span_concat (xs : List Register) (x : Register) :
    span (xs ++ [x]) = span xs + (x.val + 1) := by
  simp [span]

theorem stream_concat (s : State) (xs : List Register) (x : Register) :
    s.stream (xs ++ [x]) = s.stream xs ++ (storeRegisters x).stored s := by
  simp [stream, stored]

theorem length_stream (s : State) (xs : List Register) : (s.stream xs).length = span xs := by
  induction xs using List.reverseRecOn with
  | nil => rfl
  | append_singleton xs x ih =>
    rw [stream_concat, List.length_append, ih, length_stored_registers, span_concat]

theorem streamFits_concat :
    s.StreamFits (xs ++ [x]) ↔ s.StreamFits xs ∧ s.index.toNat + span (xs ++ [x]) ≤ 4096 := by
  have hwhole : (xs ++ [x]).take (xs.length + 1) = xs ++ [x] := by
    rw [List.take_of_length_le (by simp)]
  have hpart : ∀ n < xs.length, (xs ++ [x]).take (n + 1) = xs.take (n + 1) := fun n hn =>
    List.take_append_of_le_length hn
  constructor
  · intro h
    refine ⟨fun n hn => ?_, ?_⟩
    · rw [← hpart n hn]
      exact h n (by simp; omega)
    · rw [← hwhole]
      exact h xs.length (by simp)
  · rintro ⟨h, hall⟩ n hn
    rw [List.length_append, List.length_singleton] at hn
    rcases Nat.lt_succ_iff_lt_or_eq.mp hn with hlt | rfl
    · rw [hpart n hlt]
      exact h n hlt
    · rw [hwhole]
      exact hall

theorem StreamFits.eq_nil_or_le (h : s.StreamFits xs) :
    xs = [] ∨ s.index.toNat + span xs ≤ 4096 := by
  induction xs using List.reverseRecOn with
  | nil => exact .inl rfl
  | append_singleton xs x _ => exact .inr (streamFits_concat.mp h).2

theorem StreamFits.toNat_index (h : s.StreamFits xs) :
    (s.moved (span xs)).index.toNat = s.index.toNat + span xs := by
  have hindex := s.index.toNat_lt
  rw [moved, UInt16.toNat_add, UInt16.toNat_ofNat']
  rcases h.eq_nil_or_le with rfl | hle
  · rw [span_nil]
    omega
  · omega

/-! ## One transfer -/

theorem moved_zero (s : State) : s.moved 0 = s :=
  congrArg (fun index => { s with index }) (UInt16.add_zero s.index)

theorem moved_moved (s : State) (n k : Nat) : (s.moved n).moved k = s.moved (n + k) := by
  simp only [moved, UInt16.ofNat_add, UInt16.add_assoc]

theorem setRegisters_stored (s : State) (x : Register) :
    s.setRegisters ((storeRegisters x).stored s) = s := by
  have hsame : (s.setRegisters ((storeRegisters x).stored s)).registers = s.registers := by
    apply Vector.ext
    intro i hi
    have hreg := reg_setRegisters_stored s s x ⟨i, hi⟩
    rw [ite_self] at hreg
    exact hreg
  exact congrArg (fun registers => { s with registers }) hsame

theorem movedIndex_of_moves (hmoves : s.dialect.keepsIndex = false) (x : Register) :
    s.movedIndex x = (s.moved (x.val + 1)).index := by
  rw [movedIndex, hmoves]
  rfl

theorem after_storeRegisters (hmoves : s.dialect.keepsIndex = false) (x : Register) :
    (storeRegisters x).after s =
      { s with memory := s.memory.store s.index.toNat ((storeRegisters x).stored s) }.moved
        (x.val + 1) := by
  have hindex : (storeRegisters x).indexAfter s = _ := movedIndex_of_moves hmoves x
  rw [after, hindex]
  rfl

theorem after_loadRegisters (hmoves : s.dialect.keepsIndex = false)
    (hlies : s.window (x.val + 1) = (storeRegisters x).stored s) :
    (loadRegisters x).after s = s.moved (x.val + 1) := by
  have hindex : (loadRegisters x).indexAfter s = _ := movedIndex_of_moves hmoves x
  have hregisters : (loadRegisters x).registersAfter s = s.registers := by
    rw [registersAfter, hlies, setRegisters_stored]
  rw [after, hindex, hregisters]
  rfl

/-! ## Stores -/

theorem fits_moved_iff (h : s.StreamFits xs) :
    (s.moved (span xs)).Fits x ↔ s.index.toNat + span (xs ++ [x]) ≤ 4096 := by
  rw [Fits, h.toNat_index, span_concat, Nat.add_assoc, Nat.add_assoc]

theorem after_streamed (hmoves : s.dialect.keepsIndex = false) (h : s.StreamFits xs) :
    (storeRegisters x).after (s.streamed xs) = s.streamed (xs ++ [x]) := by
  have hplace : (s.streamed xs).index.toNat = s.index.toNat + (s.stream xs).length := by
    rw [length_stream]
    exact h.toNat_index
  have hmemory : (s.streamed xs).memory.store (s.streamed xs).index.toNat
      ((storeRegisters x).stored (s.streamed xs)) =
        s.memory.store s.index.toNat (s.stream (xs ++ [x])) := by
    rw [hplace, stream_concat, Memory.store_append]
    rfl
  have hmoves' : (s.streamed xs).dialect.keepsIndex = false := hmoves
  have hafter : (storeRegisters x).after (s.streamed xs) =
      ({ s with memory := s.memory.store s.index.toNat (s.stream (xs ++ [x])) }.moved
        (span xs)).moved (x.val + 1) := by
    rw [after_storeRegisters hmoves', hmemory]
    rfl
  rw [hafter, moved_moved, streamed, span_concat]

/-- The stores of a list succeed if it fits and then leave its stream behind. -/
theorem executeWords_stores (hmoves : s.dialect.keepsIndex = false) :
    s.executeWords (miscWords 0x55 xs) = .ok t ↔ s.StreamFits xs ∧ t = s.streamed xs := by
  -- from the right: the store that comes last finds the index behind all the others
  induction xs using List.reverseRecOn generalizing t with
  | nil =>
    have hnone : s.StreamFits [] := nofun
    have hstart : s.streamed [] = s := moved_zero s
    rw [hstart]
    exact ⟨fun h => ⟨hnone, (Except.ok.inj h).symm⟩, fun ⟨_, h⟩ => h ▸ rfl⟩
  | append_singleton xs x ih =>
    rw [miscWords_concat, executeWords_concat, streamFits_concat]
    constructor
    · rintro ⟨u, hu, ht⟩
      obtain ⟨hfits, rfl⟩ := ih.mp hu
      by_cases hx : (s.streamed xs).Fits x
      · rw [(executeWord_storeRegisters hx).1, after_streamed hmoves hfits] at ht
        exact ⟨⟨hfits, (fits_moved_iff hfits).mp hx⟩, (Except.ok.inj ht).symm⟩
      · rw [executeWord_storeRegisters_of_not_fits hx] at ht
        cases ht
    · rintro ⟨⟨hfits, hend⟩, rfl⟩
      have hx : (s.streamed xs).Fits x := (fits_moved_iff hfits).mpr hend
      refine ⟨s.streamed xs, ih.mpr ⟨hfits, rfl⟩, ?_⟩
      rw [(executeWord_storeRegisters hx).1, after_streamed hmoves hfits]

/-! ## Loads -/

theorem executeWords_loads (hmoves : s.dialect.keepsIndex = false) (h : s.StreamFits xs)
    (hlies : s.window (span xs) = s.stream xs) :
    s.executeWords (miscWords 0x65 xs) = .ok (s.moved (span xs)) := by
  induction xs using List.reverseRecOn with
  | nil =>
    rw [span_nil, moved_zero]
    rfl
  | append_singleton xs x ih =>
    obtain ⟨hfits, hend⟩ := streamFits_concat.mp h
    have hlength : (s.window (span xs)).length = (s.stream xs).length := by
      rw [window, Memory.length_slice, length_stream]
    rw [span_concat, window, Memory.slice_add, stream_concat] at hlies
    obtain ⟨hlies, hlast⟩ := List.append_inj hlies hlength
    have hx : (s.moved (span xs)).Fits x := (fits_moved_iff hfits).mpr hend
    have hafter : (loadRegisters x).after (s.moved (span xs)) =
        (s.moved (span xs)).moved (x.val + 1) := by
      refine after_loadRegisters hmoves ?_
      rw [window, hfits.toNat_index]
      exact hlast
    rw [miscWords_concat, executeWords_concat]
    refine ⟨s.moved (span xs), ih hfits hlies, ?_⟩
    rw [(executeWord_loadRegisters hx).1, hafter, moved_moved, span_concat]

/-! ## Streams -/

theorem StreamFits.slice_streamed (h : s.StreamFits xs) :
    (s.streamed xs).memory.slice s.index.toNat (span xs) = s.stream xs := by
  rw [← length_stream s xs]
  rcases h.eq_nil_or_le with rfl | hle
  · rfl
  · exact Memory.slice_store _ _ _ (length_stream s xs ▸ hle)

theorem byte_streamed {a : Nat} (h : a < s.index.toNat ∨ s.index.toNat + span xs ≤ a) :
    (s.streamed xs).memory.byte a = s.memory.byte a := by
  refine Memory.byte_store_of_outside _ ?_
  rw [length_stream]
  exact h

theorem exists_first_over (h : ¬ s.StreamFits xs) :
    ∃ n < xs.length, s.StreamFits (xs.take n) ∧
      4096 < s.index.toNat + span (xs.take (n + 1)) := by
  induction xs using List.reverseRecOn with
  | nil => exact absurd nofun h
  | append_singleton xs x ih =>
    by_cases hfits : s.StreamFits xs
    · refine ⟨xs.length, by simp, ?_, ?_⟩
      · rw [List.take_left]
        exact hfits
      · rw [List.take_of_length_le (by simp)]
        exact Nat.not_le.mp fun hend => h (streamFits_concat.mpr ⟨hfits, hend⟩)
    · obtain ⟨n, hn, hfirst, hover⟩ := ih hfits
      refine ⟨n, by simp; omega, ?_, ?_⟩
      · rw [List.take_append_of_le_length hn.le]
        exact hfirst
      · rw [List.take_append_of_le_length hn]
        exact hover

theorem executeWord_streamed_of_over (h : s.StreamFits xs)
    (hover : 4096 < s.index.toNat + span (xs ++ [x])) :
    (s.streamed xs).executeWord (0xF000 + 0x100 * x.val + 0x55) =
      .error (.outOfBounds (s.index.toNat + span xs : Nat) (x.val + 1 : Nat)) := by
  have hplace : (s.streamed xs).index.toNat = s.index.toNat + span xs := h.toNat_index
  have hx : ¬ (s.streamed xs).Fits x := fun hx =>
    Nat.not_le.mpr hover ((fits_moved_iff h).mp hx)
  rw [executeWord_storeRegisters_of_not_fits hx, hplace]

/-- Stores of registers in a dialect that moves the index. They all succeed exactly if the bytes of
each of them end in memory. Then the registers lie end to end from the index on, nothing else has
changed but the index, which is behind them, and loads of the same list from the same place change
nothing and lead to the same index. Otherwise the first store that runs past the end fails. -/
theorem stores_stream (hmoves : s.dialect.keepsIndex = false) (xs : List Register) :
    ((∃ t, s.executeWords (miscWords 0x55 xs) = .ok t) ↔ s.StreamFits xs) ∧
    (∀ t, s.executeWords (miscWords 0x55 xs) = .ok t →
      t = { s with memory := t.memory, index := t.index } ∧
      t.memory.slice s.index.toNat (span xs) = s.stream xs ∧
      (∀ a, a < s.index.toNat ∨ s.index.toNat + span xs ≤ a →
        t.memory.byte a = s.memory.byte a) ∧
      t.index.toNat = s.index.toNat + span xs ∧
      { t with index := s.index }.executeWords (miscWords 0x65 xs) = .ok t) ∧
    (¬ s.StreamFits xs → ∃ (n : Nat) (hn : n < xs.length) (t : State),
      s.StreamFits (xs.take n) ∧ 4096 < s.index.toNat + span (xs.take (n + 1)) ∧
      s.executeWords (miscWords 0x55 (xs.take n)) = .ok t ∧
      t.index.toNat = s.index.toNat + span (xs.take n) ∧
      t.executeWord (0xF000 + 0x100 * xs[n].val + 0x55) =
        .error (.outOfBounds t.index.toNat (xs[n].val + 1 : Nat)) ∧
      s.executeWords (miscWords 0x55 xs) =
        .error (.outOfBounds t.index.toNat (xs[n].val + 1 : Nat))) := by
  refine ⟨⟨fun ⟨t, ht⟩ => ((executeWords_stores hmoves).mp ht).1, fun h =>
    ⟨_, (executeWords_stores hmoves).mpr ⟨h, rfl⟩⟩⟩, fun t ht => ?_, fun h => ?_⟩
  · obtain ⟨hfits, rfl⟩ := (executeWords_stores hmoves).mp ht
    exact ⟨rfl, hfits.slice_streamed, fun a ha => byte_streamed ha, hfits.toNat_index,
      executeWords_loads (s := { s.streamed xs with index := s.index }) hmoves hfits
        hfits.slice_streamed⟩
  · obtain ⟨n, hn, hfits, hover⟩ := exists_first_over h
    have hpart := (executeWords_stores hmoves).mpr ⟨hfits, rfl⟩
    have hplace : (s.streamed (xs.take n)).index.toNat = s.index.toNat + span (xs.take n) :=
      hfits.toNat_index
    have hsplit : xs = xs.take n ++ xs[n] :: xs.drop (n + 1) := by simp
    have hfault := executeWord_streamed_of_over (x := xs[n]) hfits (by simpa using hover)
    refine ⟨n, hn, s.streamed (xs.take n), hfits, hover, hpart, hplace, ?_, ?_⟩
    · rw [hplace]
      exact hfault
    · have hwords : miscWords 0x55 xs = miscWords 0x55 (xs.take n) ++
          (0xF000 + 0x100 * (xs[n].val : Int) + 0x55) :: miscWords 0x55 (xs.drop (n + 1)) := by
        refine (congrArg (miscWords 0x55) hsplit).trans ?_
        simp only [miscWords, List.map_append, List.map_cons]
      rw [hwords, executeWords_append, hpart, Except.bind, executeWords_cons, hfault, hplace]
      rfl

theorem stores_stream_end :
    let s := { State.initial (Generator.ofSeed 0) (.ofFlags true false false false false) with
      registers := Vector.ofFn fun r => UInt8.ofNat (17 * r), index := 0xFFA }
    s.dialect.keepsIndex = false ∧
    (∃ t, s.executeWords (miscWords 0x55 [2, 2]) = .ok t ∧ t.index.toNat = 0x1000 ∧
      t.memory.slice 0xFFA 6 = [0x00, 0x11, 0x22, 0x00, 0x11, 0x22] ∧
      { t with index := 0xFFA }.executeWords (miscWords 0x65 [2, 2]) = .ok t) ∧
    s.executeWords (miscWords 0x55 [2, 2, 0]) = .error (.outOfBounds 0x1000 1) := by
  intro s
  have hmoves : s.dialect.keepsIndex = false := rfl
  obtain ⟨hok, hlaid, -⟩ := stores_stream hmoves [2, 2]
  obtain ⟨t, ht⟩ := hok.mpr (by decide)
  obtain ⟨-, hslice, -, hindex, hback⟩ := hlaid t ht
  refine ⟨hmoves, ⟨t, ht, hindex, hslice, hback⟩, ?_⟩
  obtain ⟨n, hn, u, -, hover, -, hplace, -, hfault⟩ :=
    (stores_stream hmoves [2, 2, 0]).2.2 (by decide)
  obtain rfl | rfl | rfl : n = 0 ∨ n = 1 ∨ n = 2 := by
    have hlength : n < 3 := hn
    omega
  · exact absurd hover (by decide)
  · exact absurd hover (by decide)
  · rw [hfault, hplace]
    rfl

end State

end Chip8
