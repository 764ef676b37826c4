import Chip8.Proofs.Run.Reach
import Mathlib.Data.List.Induction
import Mathlib.Logic.Function.Iterate

/-! # The random stream

A key determines a stream of keys and of bytes, one for each draw. A run reaches
its generator by drawing only, so its draws take the bytes of its first key in
order, whatever the program does with them and in between.
-/

namespace Chip8

namespace Generator

def afterDraws (k : Generator) (n : Nat) : Generator := (fun g => g.split.1)^[n] k

/-- The byte that the draw after `j` others takes. -/
def streamByte (k : Generator) (j : Nat) : UInt8 := (k.afterDraws j).split.2.byte

theorem afterDraws_succ (k : Generator) (n : Nat) :
    k.afterDraws (n + 1) = (k.afterDraws n).split.1 :=
  Function.iterate_succ_apply' ..

end Generator

namespace Execution

def isRandom (e : Execution) : Bool :=
  match e.instruction with
  | .random _ _ => true
  | _ => false

def rawByte (e : Execution) : UInt8 := e.before.generator.split.2.byte

end Execution

namespace State

variable {s t u : State} {i : Instruction} {x : Stimulus} {xs : List Stimulus} {e : Execution}
  {j : Nat}

def randoms (s : State) (xs : List Stimulus) : List Execution :=
  (s.history xs).filter Execution.isRandom

theorem generator_after (i : Instruction) (s : State) :
    (i.after s.advance).generator =
      if Execution.isRandom ⟨s, i⟩ then s.generator.split.1 else s.generator := by
  rw [Instruction.after_generator]
  cases i <;> rfl

def random? (s : State) (x : Stimulus) : Option Execution :=
  ((s.executed? x).map (⟨s, ·⟩)).filter Execution.isRandom

theorem before_of_random? (h : s.random? x = some e) : e.before = s := by
  obtain ⟨he, -⟩ := Option.filter_eq_some_iff.mp h
  obtain ⟨i, -, rfl⟩ := Option.map_eq_some_iff.mp he
  rfl

theorem generator_respond (h : s.respond x = .ok t) :
    t.generator = (s.random? x).elim s.generator fun _ => s.generator.split.1 := by
  unfold random?
  rcases respond_cases h with ⟨i, hi, -, rfl⟩ | ⟨hi, hsame⟩
  · rw [hi, generator_after]
    cases hr : Execution.isRandom ⟨s, i⟩ <;> simp [Option.filter, hr]
  · rw [hi, hsame.generator]
    rfl

theorem randoms_concat (h : s.follow xs = .ok u) :
    s.randoms (xs ++ [x]) = s.randoms xs ++ (u.random? x).toList := by
  unfold randoms random?
  rw [history_concat h, List.filter_append]
  cases hi : u.executed? x with
  | none => rfl
  | some i => cases hr : Execution.isRandom ⟨u, i⟩ <;> simp [Option.filter, hr]

/-- After `n` draws a run has the key that `n` draws keep, and each draw found its own key. -/
theorem generator_follow (h : s.follow xs = .ok t) :
    t.generator = s.generator.afterDraws (s.randoms xs).length ∧
      ∀ j e, (s.randoms xs)[j]? = some e → e.before.generator = s.generator.afterDraws j := by
  induction xs using List.reverseRecOn generalizing t with
  | nil =>
    cases follow_nil.mp h
    exact ⟨rfl, nofun⟩
  | append_singleton xs x ih =>
    obtain ⟨u, hu, ht⟩ := follow_concat.mp h
    obtain ⟨hkey, hdraws⟩ := ih hu
    rw [randoms_concat hu, generator_respond ht]
    cases hr : u.random? x with
    | none =>
      simp only [Option.elim_none, Option.toList_none, List.append_nil]
      exact ⟨hkey, hdraws⟩
    | some e' =>
      simp only [Option.elim_some, Option.toList_some]
      constructor
      · rw [List.length_append, List.length_singleton, Generator.afterDraws_succ, hkey]
      · intro j e he
        rcases Nat.lt_or_ge j (s.randoms xs).length with hj | hj
        · rw [List.getElem?_append_left hj] at he
          exact hdraws j e he
        · rw [List.getElem?_append_right hj, List.getElem?_singleton] at he
          obtain ⟨hz, rfl⟩ : j - (s.randoms xs).length = 0 ∧ e' = e := by simpa using he
          obtain rfl : j = (s.randoms xs).length := by omega
          rw [before_of_random? hr, hkey]

theorem registers_of_random {x : Register} {mask : UInt8} (hd : s.due? = some (.random x mask))
    (h : s.step = .ok t) :
    t.registers = (s.setReg x (s.generator.split.2.byte &&& mask)).registers := by
  rcases step_eq_ok_iff.mp h with ⟨hw, -⟩ | ⟨i, hi, -, rfl⟩
  · exact absurd (due?_eq_some_iff.mp hd).1 hw
  · cases hd.symm.trans hi
    rfl

theorem random_takes (h : s.follow xs = .ok t) (he : (s.randoms xs)[j]? = some e) :
    e.rawByte = s.generator.streamByte j ∧ ∃ x mask u, e.instruction = .random x mask ∧
      e.before.step = .ok u ∧ u.registers = (e.before.setReg x (e.rawByte &&& mask)).registers := by
  have hkey := (generator_follow h).2 j e he
  obtain ⟨hmem, hr⟩ := List.mem_filter.mp (List.mem_of_getElem? he)
  obtain ⟨hd, u, hu⟩ := exists_step_of_mem_history h hmem
  refine ⟨by rw [Execution.rawByte, hkey, Generator.streamByte], ?_⟩
  obtain ⟨v, i⟩ := e
  cases i with
  | random x mask => exact ⟨x, mask, u, rfl, hu, registers_of_random hd hu⟩
  | _ => cases hr

end State

/-- The law of the random stream. A run with `n` draws ends with the key that `n` draws keep, and
each of them puts the byte of its place in the stream, masked, into its register and changes no
other. So runs with one seed take the same bytes, whatever their programs, dialects and keys. -/
theorem random_stream :
    (∀ (s t : State) xs, s.follow xs = .ok t →
      t.generator = s.generator.afterDraws (s.randoms xs).length ∧
      ∀ j e, (s.randoms xs)[j]? = some e → e.rawByte = s.generator.streamByte j ∧
        ∃ x mask u, e.instruction = .random x mask ∧ e.before.step = .ok u ∧
          u.registers = (e.before.setReg x (e.rawByte &&& mask)).registers) ∧
    ∀ (m m' : Machine) (s s' t t' : State) (xs xs' : List Stimulus), m.seedValue = m'.seedValue →
      m.reset = .ok s → m'.reset = .ok s' → s.follow xs = .ok t → s'.follow xs' = .ok t' →
      ∀ (j : Nat) (e e' : Execution), (s.randoms xs)[j]? = some e → (s'.randoms xs')[j]? = some e' →
        e.rawByte = e'.rawByte := by
  constructor
  · intro s t xs h
    exact ⟨(State.generator_follow h).1, fun j e he => State.random_takes h he⟩
  · intro m m' s s' t t' xs xs' hseed hs hs' ht ht' j e e' he he'
    obtain ⟨-, seed, hm, rfl⟩ := Machine.reset_eq_ok_iff.mp hs
    obtain ⟨-, seed', hm', rfl⟩ := Machine.reset_eq_ok_iff.mp hs'
    obtain rfl : seed = seed' := Except.ok.inj (hm.symm.trans (hseed.trans hm'))
    exact (State.random_takes ht he).1.trans (State.random_takes ht' he').1.symm

theorem random_stream_two_programs :
    ∃ (s s' t t' : State) (e e' : Execution),
      (Machine.ofProgram [0xC0, 0xFF, 0xC1, 0x0F]).reset = .ok s ∧
      (Machine.ofProgram [0xC2, 0x00, 0x62, 0x01, 0xF2, 0x15, 0xC3, 0xF0]).reset = .ok s' ∧
      s.follow [.cycle, .cycle] = .ok t ∧
      s'.follow [.cycle, .setKey 4 true, .cycle, .tick, .cycle, .cycle] = .ok t' ∧
      e.instruction = .random 1 0x0F ∧ e'.instruction = .random 3 0xF0 ∧
      e.rawByte = e'.rawByte ∧ t.generator = s.generator.afterDraws 2 := by
  have hrun : ((Machine.ofProgram [0xC0, 0xFF, 0xC1, 0x0F]).reset.toOption.any fun s =>
      (s.follow [.cycle, .cycle]).toOption.any fun _ =>
        (s.randoms [.cycle, .cycle]).length == 2 &&
        (s.randoms [.cycle, .cycle])[1]?.any fun e => e.instruction == .random 1 0x0F) = true := by
    decide +kernel
  have hrun' : ((Machine.ofProgram
      [0xC2, 0x00, 0x62, 0x01, 0xF2, 0x15, 0xC3, 0xF0]).reset.toOption.any fun s =>
        (s.follow [.cycle, .setKey 4 true, .cycle, .tick, .cycle, .cycle]).toOption.any fun _ =>
          (s.randoms [.cycle, .setKey 4 true, .cycle, .tick, .cycle, .cycle])[1]?.any fun e =>
            e.instruction == .random 3 0xF0) = true := by
    decide +kernel
  obtain ⟨s, hs, hrun⟩ := exists_ok_of_any hrun
  obtain ⟨t, ht, hrun⟩ := exists_ok_of_any hrun
  obtain ⟨hlen, hrun⟩ := Bool.and_eq_true_iff.mp hrun
  obtain ⟨e, he, hi⟩ := (Option.any_eq_true ..).mp hrun
  obtain ⟨s', hs', hrun'⟩ := exists_ok_of_any hrun'
  obtain ⟨t', ht', hrun'⟩ := exists_ok_of_any hrun'
  obtain ⟨e', he', hi'⟩ := (Option.any_eq_true ..).mp hrun'
  obtain ⟨hlaw, htwo⟩ := random_stream
  have hkey := (hlaw s t _ ht).1
  rw [beq_iff_eq.mp hlen] at hkey
  have hseed : ∀ program, (Machine.ofProgram program).seedValue = .ok 0 := fun _ => rfl
  have hraw := htwo _ _ s s' t t' _ _ ((hseed _).trans (hseed _).symm) hs hs' ht ht' 1 e e' he he'
  exact ⟨s, s', t, t', e, e', hs, hs', ht, ht', beq_iff_eq.mp hi, beq_iff_eq.mp hi', hraw, hkey⟩

end Chip8
