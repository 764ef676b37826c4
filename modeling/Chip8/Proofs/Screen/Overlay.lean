import Chip8.Proofs.Screen.Drawing
import Mathlib.Algebra.Group.Nat.Even

/-! # Drawings on top of each other

Many drawings leave of a pixel what the parity of those that flip it says. So
their order does not matter, and a second round of them, in any order, takes back
the first. What a drawing turned on, it turns off when it is repeated: the
collisions of the two tell which kinds of pixels it flips.
-/

namespace Chip8

/-- A sprite with the place of its corner, stopped at the edges or not. -/
structure Drawing where
  x : Int
  y : Int
  sprite : List UInt8
  clip : Bool
  length_le : sprite.length ≤ 32

namespace Drawing

def Flips (d : Drawing) (r c : Nat) : Prop := Sprite.Flips d.clip d.x d.y d.sprite r c

instance (d : Drawing) (r c : Nat) : Decidable (d.Flips r c) :=
  inferInstanceAs (Decidable (Sprite.Flips d.clip d.x d.y d.sprite r c))

/-- The screen that the drawing leaves, and whether it collides. -/
def on (d : Drawing) (s : Screen) : Screen × Bool := s.draw d.x d.y d.sprite d.clip

end Drawing

namespace Screen

def drawAll (s : Screen) (ds : List Drawing) : Screen := ds.foldl (fun s d => (d.on s).1) s

variable {s : Screen} {d : Drawing} {ds ds' : List Drawing} {r c : Nat}

theorem lit_on (hr : r < 32) (hc : c < 64) :
    (d.on s).1.lit r c = (s.lit r c ^^ decide (d.Flips r c)) :=
  lit_draw d.length_le hr hc

/-! ## Lists of drawings -/

theorem lit_drawAll (hr : r < 32) (hc : c < 64) :
    (s.drawAll ds).lit r c =
      (s.lit r c ^^ decide (Odd (ds.countP fun d => decide (d.Flips r c)))) := by
  -- what a drawing flips does not depend on the screen, so the first one can be split off
  induction ds generalizing s with
  | nil => simp [drawAll]
  | cons d ds ih =>
    have hcons : s.drawAll (d :: ds) = (d.on s).1.drawAll ds := rfl
    rw [hcons, ih, lit_on hr hc, Bool.xor_assoc, List.countP_cons]
    congr 1
    by_cases hd : d.Flips r c
    · simp only [hd, decide_true, if_true, Nat.odd_add_one, decide_not, Bool.true_xor]
    · simp only [hd, decide_false, Bool.false_eq_true, if_false, Nat.add_zero, Bool.false_xor]

theorem drawAll_perm (h : ds.Perm ds') : s.drawAll ds = s.drawAll ds' := by
  apply eq_of_lit
  intro r hr c hc
  rw [lit_drawAll hr hc, lit_drawAll hr hc, h.countP_eq]

theorem drawAll_drawAll (h : ds.Perm ds') : (s.drawAll ds).drawAll ds' = s := by
  apply eq_of_lit
  intro r hr c hc
  rw [lit_drawAll hr hc, lit_drawAll hr hc, h.countP_eq, Bool.xor_assoc, Bool.xor_self,
    Bool.xor_false]

/-! ## A drawing and its repetition -/

theorem on_on (d : Drawing) (s : Screen) : (d.on (d.on s).1).1 = s := by
  have htwice : (s.drawAll [d]).drawAll [d] = s := drawAll_drawAll (List.Perm.refl [d])
  exact htwice

theorem collision_on :
    (d.on s).2 = true ↔
      ∃ r < 32, ∃ c < 64, s.lit r c = true ∧ (d.on s).1.lit r c = false :=
  collision_draw

theorem collision_on_on :
    (d.on (d.on s).1).2 = true ↔
      ∃ r < 32, ∃ c < 64, s.lit r c = false ∧ (d.on s).1.lit r c = true := by
  rw [collision_on, on_on]
  simp only [and_comm]

theorem exists_lit_on_ne_iff :
    (∃ r < 32, ∃ c < 64, (d.on s).1.lit r c ≠ s.lit r c) ↔
      (d.on s).2 = true ∨ (d.on (d.on s).1).2 = true := by
  rw [collision_on, collision_on_on]
  constructor
  · rintro ⟨r, hr, c, hc, hne⟩
    cases hs : s.lit r c with
    | true =>
      rw [hs] at hne
      exact .inl ⟨r, hr, c, hc, hs, Bool.eq_false_of_not_eq_true hne⟩
    | false =>
      rw [hs] at hne
      exact .inr ⟨r, hr, c, hc, hs, Bool.eq_true_of_not_eq_false hne⟩
  · rintro (⟨r, hr, c, hc, hs, ht⟩ | ⟨r, hr, c, hc, hs, ht⟩)
    all_goals
      refine ⟨r, hr, c, hc, ?_⟩
      rw [hs, ht]
      decide

/-- Drawings commute and undo themselves. A list of them flips the pixels that an odd number of
them flip; so each of its permutations leaves the same screen, and performed after it brings the
old screen back. When a drawing is repeated, one of the two collides at least if it flips a pixel,
and both if it flips a lit one and a dark one. -/
theorem drawings_commute (s : Screen) :
    (∀ ds ds' : List Drawing, ds.Perm ds' →
      (∀ r < 32, ∀ c < 64, (s.drawAll ds).lit r c =
        (s.lit r c ^^ decide (Odd (ds.countP fun d => decide (d.Flips r c))))) ∧
      s.drawAll ds' = s.drawAll ds ∧ (s.drawAll ds).drawAll ds' = s) ∧
    ∀ d : Drawing,
      ((d.on s).2 = true ∨ (d.on (d.on s).1).2 = true ↔
        ∃ r < 32, ∃ c < 64, (d.on s).1.lit r c ≠ s.lit r c) ∧
      ((d.on s).2 = true ∧ (d.on (d.on s).1).2 = true ↔
        (∃ r < 32, ∃ c < 64, s.lit r c = true ∧ (d.on s).1.lit r c = false) ∧
          ∃ r < 32, ∃ c < 64, s.lit r c = false ∧ (d.on s).1.lit r c = true) := by
  constructor
  · intro ds ds' h
    exact ⟨fun r hr c hc => lit_drawAll hr hc, (drawAll_perm h).symm, drawAll_drawAll h⟩
  · intro d
    exact ⟨exists_lit_on_ne_iff.symm, and_congr collision_on collision_on_on⟩

theorem drawings_commute_overlapping :
    let ds : List Drawing :=
      [⟨62, 31, [0xFF, 0xFF], false, by decide⟩, ⟨-4, 30, [0xF0, 0xB0, 0xF0], true, by decide⟩,
        ⟨-2, 63, [0x90], false, by decide⟩]
    ds.Perm ds.reverse ∧ blank.drawAll ds.reverse = blank.drawAll ds ∧
      (blank.drawAll ds).lit 31 62 = true ∧ (blank.drawAll ds).lit 31 1 = false ∧
      (blank.drawAll ds).drawAll ds.reverse = blank := by
  intro ds
  have hperm : ds.Perm ds.reverse := ds.reverse_perm.symm
  obtain ⟨hlit, horder, hback⟩ := (drawings_commute blank).1 ds ds.reverse hperm
  refine ⟨hperm, horder, ?_, ?_, hback⟩
  · rw [hlit 31 (by decide) 62 (by decide)]
    decide +kernel
  · rw [hlit 31 (by decide) 1 (by decide)]
    decide +kernel

end Screen

end Chip8
