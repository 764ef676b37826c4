import Chip8.Proofs.Memory.LastStore
import Chip8.Proofs.Memory.Loading
import Chip8.Proofs.Run.Coherence
import Chip8.Proofs.Screen.Drawing

/-! # Digits on the screen

Every machine starts with the font below its program, and only stores can touch
it. As long as none does, looking up the glyph of a register leads the index to
the rows of its low digit, and the next instruction finds them there.
-/

namespace Chip8

namespace Memory

variable {m : Memory}

/-- The font lies in its place. -/
def HoldsFont (m : Memory) : Prop := m.slice 0x050 80 = Font.data

theorem HoldsFont.slice_address (h : m.HoldsFont) (digit : Fin 16) :
    m.slice (Font.address digit) 5 = Font.glyph digit := by
  have hinside : 5 * digit.val + 5 ≤ 80 := by omega
  have hpart := m.take_drop_slice 0x050 hinside
  rw [h] at hpart
  exact hpart.symm

theorem holdsFont_of_byte {m' : Memory} (h : m.HoldsFont)
    (hsame : ∀ a < 0x0A0, 0x050 ≤ a → m'.byte a = m.byte a) : m'.HoldsFont := by
  have hslice : m'.slice 0x050 80 = m.slice 0x050 80 := by
    refine List.map_congr_left fun i hi => ?_
    have hi := List.mem_range.mp hi
    exact hsame _ (by omega) (by omega)
  exact hslice.trans h

end Memory

namespace Execution

/-- The execution stores to no byte of the font. -/
def SparesFont (e : Execution) : Prop := ∀ a < 0x0A0, 0x050 ≤ a → ¬ e.StoresTo a

instance (e : Execution) : Decidable e.SparesFont :=
  inferInstanceAs (Decidable (∀ a < 0x0A0, _ → _))

theorem byteAfter_of_forall {start : UInt8} {history : List Execution} {a : Nat}
    (h : ∀ e ∈ history, ¬ e.StoresTo a) : byteAfter start history a = start := by
  have hnone : (history.filter fun e => decide (e.StoresTo a)) = [] :=
    List.filter_eq_nil_iff.mpr fun e he => by simp [h e he]
  rw [byteAfter, hnone]
  rfl

end Execution

namespace State

variable {s t u : State} {x p q : Register} {xs : List Stimulus}

theorem holdsFont_follow (h : s.follow xs = .ok t) (hs : s.memory.HoldsFont)
    (hspares : ∀ e ∈ s.history xs, e.SparesFont) : t.memory.HoldsFont := by
  refine Memory.holdsFont_of_byte hs fun a hend hstart => ?_
  rw [byte_follow h (by omega)]
  exact Execution.byteAfter_of_forall fun e he => hspares e he a hend hstart

theorem step_glyph (hd : s.due? = some (.glyph x)) :
    ∃ t, s.step = .ok t ∧ t.memory = s.memory ∧
      t.index = UInt16.ofNat (Font.address (Fin.ofNat 16 (s.reg x).toNat)) :=
  ⟨_, step_eq_ok_iff.mpr (.inr ⟨_, hd, rfl, rfl⟩), rfl, rfl⟩

theorem toNat_address (digit : Fin 16) :
    (UInt16.ofNat (Font.address digit)).toNat = Font.address digit := by
  have hsmall : Font.address digit < 0x0A0 := by
    unfold Font.address Font.start Font.height
    omega
  rw [UInt16.toNat_ofNat']
  omega

theorem window_of_index {digit : Fin 16} (hfont : s.memory.HoldsFont)
    (hindex : s.index = UInt16.ofNat (Font.address digit)) : s.window 5 = Font.glyph digit := by
  rw [window, hindex, toNat_address]
  exact hfont.slice_address digit

theorem step_draw_glyph {digit : Fin 16} (hd : s.due? = some (.draw p q 5))
    (hfont : s.memory.HoldsFont) (hindex : s.index = UInt16.ofNat (Font.address digit)) :
    ∃ u, s.step = .ok u ∧
      u.screen = (s.screen.draw (s.reg p).toNat (s.reg q).toNat (Font.glyph digit)
        s.dialect.clipsSprites).1 := by
  have hinside : ¬ 4096 < s.index.toNat + 5 := by
    rw [hindex, toNat_address]
    unfold Font.address Font.start Font.height
    omega
  have hfault : (Instruction.draw p q 5).fault? s.advance = none := if_neg hinside
  refine ⟨_, step_eq_ok_iff.mpr (.inr ⟨_, hd, hfault, rfl⟩), ?_⟩
  have hwindow : s.advance.window 5 = Font.glyph digit := window_of_index (s := s) hfont hindex
  have hscreen : (s.advance.drawn p q 5).1 = (s.screen.draw (s.reg p).toNat (s.reg q).toNat
      (s.advance.window 5) s.dialect.clipsSprites).1 := rfl
  rw [Instruction.after_screen, ← hwindow]
  exact hscreen

end State

namespace Machine

variable {m : Machine} {s : State} {xs : List Stimulus} {before after : List Execution}
  {e : Execution} {x : Register}

/-- Digits are drawn as the font has them. In a run from the start, an instruction that looks up the
glyph of a register succeeds; and if none before it has stored to the font, and the next executed
instruction draws a sprite of five rows, this succeeds as well and flips exactly the pixels of the
rows that the font has for the low digit of the register. -/
theorem digits_drawn (hreset : m.reset = .ok s) (h : s.history xs = before ++ e :: after)
    (hspares : ∀ d ∈ before, d.SparesFont) (hglyph : e.instruction = .glyph x) :
    (∃ t, e.before.step = .ok t) ∧
    ∀ d p q, after.head? = some d → d.instruction = .draw p q 5 →
      ∃ u, d.before.step = .ok u ∧
        ∀ r < 32, ∀ c < 64, u.screen.lit r c =
          (d.before.screen.lit r c ^^ decide (Sprite.Flips m.dialect.clipsSprites
            (d.before.reg p).toNat (d.before.reg q).toNat
            ((Font.data.drop (5 * ((e.before.reg x).toNat % 16))).take 5) r c)) := by
  obtain ⟨ys, -, hys, hbefore, -⟩ := State.exists_of_history_eq h
  have hmem : ∀ d ∈ e :: after, d ∈ s.history xs := fun d hd =>
    h ▸ List.mem_append_right before hd
  have hdue := (State.exists_of_mem_history (hmem e List.mem_cons_self)).1
  rw [hglyph] at hdue
  obtain ⟨t, ht, hmemory, hindex⟩ := State.step_glyph hdue
  have hfont : t.memory.HoldsFont := by
    rw [hmemory]
    exact State.holdsFont_follow hys (fresh_of_reset hreset).font (hbefore ▸ hspares)
  refine ⟨⟨t, ht⟩, fun d p q hhead hdraw => ?_⟩
  obtain ⟨rest, rfl⟩ := List.head?_eq_some_iff.mp hhead
  obtain ⟨t', zs, ht', hzs, hnone⟩ := State.exists_next_of_history_eq h
  obtain rfl : t = t' := Except.ok.inj (ht.symm.trans ht')
  have hsame := State.untouched_follow hzs hnone
  obtain ⟨hdue', ws, -, hws⟩ :=
    State.exists_of_mem_history (hmem d (List.mem_cons_of_mem e List.mem_cons_self))
  rw [hdraw] at hdue'
  obtain ⟨u, hu, hscreen⟩ :=
    State.step_draw_glyph hdue' (hsame.memory ▸ hfont) (hsame.index.trans hindex)
  have hdialect : d.before.dialect = m.dialect := Reaches.dialect_eq ⟨s, ws, hreset, hws⟩
  refine ⟨u, hu, fun r hr c hc => ?_⟩
  rw [hscreen, hdialect]
  exact Screen.lit_draw (List.length_take_le 5 _ |>.trans (by decide)) hr hc

theorem digits_drawn_corner :
    let m := ofProgram [0x60, 0x3E, 0xA0, 0xA0, 0xF0, 0x33, 0xF0, 0x29, 0xD0, 0x05]
    ∃ s before e after, m.reset = .ok s ∧
      s.history (List.replicate 5 .cycle) = before ++ e :: after ∧
      (∀ d ∈ before, d.SparesFont) ∧ e.instruction = .glyph 0 ∧
      ∃ d u, after.head? = some d ∧ d.instruction = .draw 0 0 5 ∧ d.before.step = .ok u ∧
        d.before.screen.lit 0 1 = false ∧ u.screen.lit 0 1 = true := by
  intro m
  have hrun : (m.reset.toOption.any fun s =>
      let history := s.history (List.replicate 5 .cycle)
      history[3]?.any fun e => history[4]?.any fun d =>
        (history.take 3).all (fun d => decide d.SparesFont) && e.instruction == .glyph 0 &&
          d.instruction == .draw 0 0 5 && !d.before.screen.lit 0 1 &&
          decide (Sprite.Flips m.dialect.clipsSprites (d.before.reg 0).toNat (d.before.reg 0).toNat
            ((Font.data.drop (5 * ((e.before.reg 0).toNat % 16))).take 5) 0 1)) = true := by
    decide +kernel
  obtain ⟨s, hs, hrun⟩ := exists_ok_of_any hrun
  generalize hhistory : s.history (List.replicate 5 .cycle) = history at hrun
  obtain ⟨e, he, hrun⟩ := (Option.any_eq_true ..).mp hrun
  obtain ⟨d, hd, hrun⟩ := (Option.any_eq_true ..).mp hrun
  simp only [Bool.and_eq_true, List.all_eq_true, decide_eq_true_eq, beq_iff_eq,
    Bool.not_eq_true'] at hrun
  obtain ⟨⟨⟨⟨hspares, hglyph⟩, hdraw⟩, hdark⟩, hflips⟩ := hrun
  obtain ⟨hlength, rfl⟩ := List.getElem?_eq_some_iff.mp he
  have hsplit : history = history.take 3 ++ history[3] :: history.drop 4 := by
    rw [← List.drop_eq_getElem_cons, List.take_append_drop]
  have hhead : (history.drop 4).head? = some d := List.head?_drop.trans hd
  obtain ⟨-, hnext⟩ := digits_drawn hs (hhistory.trans hsplit) hspares hglyph
  obtain ⟨u, hu, hlit⟩ := hnext d 0 0 hhead hdraw
  refine ⟨s, history.take 3, history[3], history.drop 4, hs, hhistory.trans hsplit, hspares, hglyph,
    d, u, hhead, hdraw, hu, hdark, ?_⟩
  rw [hlit 0 (by decide) 1 (by decide), hdark, decide_eq_true hflips]
  rfl

end Machine

end Chip8
