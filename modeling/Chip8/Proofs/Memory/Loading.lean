import Chip8.Proofs.Run.Reach

/-! # Loading programs

A program that is loaded lies from `0x200` on, and all else is as it was. What
is loaded over another program covers as much of it as it is long. So a machine
starts with the font, its program and zeros.
-/

namespace Chip8

namespace State

variable {s t : State} {program : List UInt8}

theorem load_eq_error_iff :
    s.load program = .error (.outOfBounds 0x200 program.length) ↔ 3584 < program.length := by
  rw [load_eq]
  split <;> simp_all

theorem load_of_fits (h : program.length ≤ 3584) :
    s.load program = .ok { s with memory := s.memory.store 0x200 program } := by
  rw [load_eq, if_neg (Nat.not_lt.mpr h)]

theorem load_load {program' : List UInt8} (h : program.length ≤ 3584)
    (h' : program'.length ≤ 3584) :
    (s.load program).bind (·.load program') =
      s.load (program' ++ program.drop program'.length) := by
  have hlength : (program' ++ program.drop program'.length).length ≤ 3584 := by
    rw [List.length_append, List.length_drop]
    omega
  rw [load_of_fits h, load_of_fits hlength, Except.bind, load_of_fits h', Memory.store_store]

end State

namespace Machine

variable {m : Machine} {s : State}

/-- The font, the program and nothing else. -/
structure Fresh (m : Machine) (memory : Memory) : Prop where
  font : memory.slice 0x050 80 = Font.data
  program : memory.slice 0x200 m.program.length = m.program
  zero : ∀ a, (a < 0x050 ∨ 0x09F < a ∧ a < 0x200 ∨ 0x200 + m.program.length ≤ a) →
    memory.byte a = 0

theorem fresh_of_reset (h : m.reset = .ok s) : m.Fresh s.memory := by
  obtain ⟨hp, seed, -, rfl⟩ := reset_eq_ok_iff.mp h
  have hstart : Font.start = 0x050 := rfl
  have hfont : Font.data.length = 80 := rfl
  refine ⟨?_, Memory.slice_store _ _ _ (by omega), fun a ha => ?_⟩
  · rw [Memory.slice_store_of_outside _ (by omega), ← hfont]
    exact Memory.slice_store _ _ _ (by omega)
  · rw [Memory.byte_store_of_outside _ (by omega), Memory.byte_store_of_outside _ (by omega),
      Memory.byte_zero]

theorem exists_reset_iff (hp : m.program.length ≤ 3584) :
    (∃ s, m.reset = .ok s) ↔ ∃ seed, m.seedValue = .ok seed := by
  constructor
  · rintro ⟨s, hs⟩
    obtain ⟨-, seed, hseed, -⟩ := reset_eq_ok_iff.mp hs
    exact ⟨seed, hseed⟩
  · rintro ⟨seed, hseed⟩
    exact exists_reset hp hseed

/-- Programs are loaded as they are. One that is too long is refused with its place and its length,
any other lies from `0x200` on and leaves all else alone. A program that is loaded over another one
leaves what runs past its end, as if the two were one. So a machine whose program fits starts, if
its seed is one, with the font, its program and zeros in memory. -/
theorem load_exact :
    (∀ (s : State) program, s.load program = .error (.outOfBounds 0x200 program.length) ↔
      3584 < program.length) ∧
    (∀ (s : State) program, program.length ≤ 3584 → ∃ t, s.load program = .ok t ∧
      t = { s with memory := t.memory } ∧
      t.memory.slice 0x200 program.length = program ∧
      ∀ a, a < 0x200 ∨ 0x200 + program.length ≤ a → t.memory.byte a = s.memory.byte a) ∧
    (∀ (s : State) program program', program.length ≤ 3584 → program'.length ≤ 3584 →
      (s.load program).bind (·.load program') =
        s.load (program' ++ program.drop program'.length)) ∧
    ∀ m : Machine, m.program.length ≤ 3584 →
      ((∃ s, m.reset = .ok s) ↔ ∃ seed, m.seedValue = .ok seed) ∧
      ∀ s, m.reset = .ok s → m.Fresh s.memory := by
  refine ⟨fun s program => State.load_eq_error_iff, fun s program h => ?_,
    fun s program program' h h' => State.load_load h h',
    fun m hp => ⟨exists_reset_iff hp, fun s hs => fresh_of_reset hs⟩⟩
  exact ⟨_, State.load_of_fits h, rfl, Memory.slice_store _ _ _ (by omega),
    fun a ha => Memory.byte_store_of_outside _ ha⟩

theorem load_exact_full :
    let full : List UInt8 := .replicate 3584 0xAB
    let m := ofProgram full
    m.program.length ≤ 3584 ∧ ∃ s, m.reset = .ok s ∧ m.Fresh s.memory ∧
      (∃ t, s.load [0x12, 0x00] = .ok t ∧ t.memory.slice 0x200 2 = [0x12, 0x00] ∧
        t.memory.byte 0xFFF = s.memory.byte 0xFFF) ∧
      (s.load full).bind (·.load [0x12, 0x00]) = s.load ([0x12, 0x00] ++ full.drop 2) ∧
      s.load (0x00 :: full) = .error (.outOfBounds 0x200 3585) := by
  intro full m
  have hlength : full.length = 3584 := List.length_replicate
  have hlonger : (0x00 :: full).length = 3585 := congrArg Nat.succ hlength
  have hfull : full.length ≤ 3584 := Nat.le_of_eq hlength
  have hshort : [(0x12 : UInt8), 0x00].length ≤ 3584 := by decide
  obtain ⟨hrefused, hloaded, hover, hreset⟩ := load_exact
  obtain ⟨s, hs⟩ := (hreset m hfull).1.mpr ⟨0, rfl⟩
  obtain ⟨t, ht, -, hlies, hrest⟩ := hloaded s [0x12, 0x00] hshort
  have hfault := (hrefused s (0x00 :: full)).mpr (by omega)
  rw [hlonger] at hfault
  exact ⟨hfull, s, hs, (hreset m hfull).2 s hs, ⟨t, ht, hlies, hrest _ (.inr (by decide))⟩,
    hover s full [0x12, 0x00] hfull hshort, hfault⟩

end Machine

end Chip8
