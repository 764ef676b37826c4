import Chip8.Proofs.Screen.Mask
import Mathlib.Algebra.BigOperators.Ring.Finset

/-! # Drawings

A drawing told pixel by pixel, in the coordinates in which its corner is given.
Each pixel asks for the row and the column of the sprite that fall on it: no two
of them fall on the same one, so the pixels that were flipped can be counted, and
a collision shows in the numbers of lit pixels.
-/

namespace Chip8

namespace Sprite

variable {clip : Bool} {x y : Int} {sprite : List UInt8} {r c : Nat}

/-- A drawing with its corner at `(x, y)` flips the pixel in row `r` and column `c`. -/
def Flips (clip : Bool) (x y : Int) (sprite : List UInt8) (r c : Nat) : Prop :=
  ∃ i < sprite.length, ∃ j < (8 : Nat),
    (i : Int) = (r - y % 32) % 32 ∧ (j : Int) = (c - x % 64) % 64 ∧
    (sprite.getD i 0).toNat.testBit (7 - j) = true ∧
    (clip = true → y % 32 ≤ r ∧ x % 64 ≤ c)

instance (clip : Bool) (x y : Int) (sprite : List UInt8) (r c : Nat) :
    Decidable (Flips clip x y sprite r c) :=
  inferInstanceAs (Decidable (∃ i < sprite.length, ∃ j < (8 : Nat), _))

theorem rowOffset_corner (hr : r < 32) :
    (rowOffset (y % 32).toNat r : Int) = (r - y % 32) % 32 := by
  unfold rowOffset
  omega

theorem columnOffset_corner (hc : c < 64) :
    (columnOffset (x % 64).toNat c : Int) = (c - x % 64) % 64 := by
  unfold columnOffset
  omega

theorem lit_mask_eq_flips (hr : r < 32) (hc : c < 64) (hlen : sprite.length ≤ 32) :
    (Sprite.mask clip x y sprite).lit r c = decide (Flips clip x y sprite r c) := by
  have hrow := rowOffset_corner (y := y) hr
  have hcolumn := columnOffset_corner (x := x) hc
  rw [lit_mask hr hc hlen, Bool.eq_iff_iff, decide_eq_true_iff]
  simp only [bit, Bool.and_eq_true, Bool.or_eq_true, Bool.not_eq_true', decide_eq_true_eq]
  constructor
  · rintro ⟨⟨hi, hj, hbit⟩, hedge⟩
    refine ⟨_, hi, _, hj, hrow, hcolumn, hbit, fun hclip => ?_⟩
    rcases hedge with hclip' | ⟨htop, hleft⟩
    · rw [hclip] at hclip'
      cases hclip'
    · omega
  · rintro ⟨i, hi, j, hj, hir, hjc, hbit, hedge⟩
    obtain rfl : i = rowOffset (y % 32).toNat r := by omega
    obtain rfl : j = columnOffset (x % 64).toNat c := by omega
    refine ⟨⟨hi, hj, hbit⟩, ?_⟩
    cases clip with
    | false => exact .inl rfl
    | true =>
      obtain ⟨htop, hleft⟩ := hedge rfl
      right
      omega

end Sprite

namespace Screen

variable {s : Screen} {p q : Nat → Nat → Bool} {x y : Int} {sprite : List UInt8} {clip : Bool}

/-! ## Numbers of pixels -/

def places : Finset (Nat × Nat) := Finset.range 32 ×ˢ Finset.range 64

/-- The number of pixels of which something holds, given their row and column. -/
def count (p : Nat → Nat → Bool) : Nat := (places.filter fun a => p a.1 a.2 = true).card

theorem mem_places {a : Nat × Nat} : a ∈ places ↔ a.1 < 32 ∧ a.2 < 64 := by
  rw [places, Finset.mem_product, Finset.mem_range, Finset.mem_range]

theorem count_congr (h : ∀ r < 32, ∀ c < 64, p r c = q r c) : count p = count q := by
  unfold count
  congr 1
  refine Finset.filter_congr fun a ha => ?_
  obtain ⟨hr, hc⟩ := mem_places.mp ha
  rw [h _ hr _ hc]

theorem count_ne_zero_iff : count p ≠ 0 ↔ ∃ r < 32, ∃ c < 64, p r c = true := by
  rw [count, Finset.card_ne_zero]
  constructor
  · rintro ⟨a, ha⟩
    obtain ⟨hplace, hp⟩ := Finset.mem_filter.mp ha
    obtain ⟨hr, hc⟩ := mem_places.mp hplace
    exact ⟨a.1, hr, a.2, hc, hp⟩
  · rintro ⟨r, hr, c, hc, hp⟩
    exact ⟨(r, c), Finset.mem_filter.mpr ⟨mem_places.mpr ⟨hr, hc⟩, hp⟩⟩

theorem count_xor (p q : Nat → Nat → Bool) :
    count (fun r c => p r c ^^ q r c) + 2 * count (fun r c => p r c && q r c) =
      count p + count q := by
  simp only [count, Finset.card_filter]
  rw [Finset.mul_sum, ← Finset.sum_add_distrib, ← Finset.sum_add_distrib]
  refine Finset.sum_congr rfl fun a _ => ?_
  cases p a.1 a.2 <;> cases q a.1 a.2 <;> rfl

/-! ## Collisions -/

theorem lit_draw {r c : Nat} (hlen : sprite.length ≤ 32) (hr : r < 32) (hc : c < 64) :
    (s.draw x y sprite clip).1.lit r c =
      (s.lit r c ^^ decide (Sprite.Flips clip x y sprite r c)) := by
  rw [draw, lit_flip, Sprite.lit_mask_eq_flips hr hc hlen]

theorem collision_draw :
    (s.draw x y sprite clip).2 = true ↔
      ∃ r < 32, ∃ c < 64, s.lit r c = true ∧ (s.draw x y sprite clip).1.lit r c = false := by
  rw [draw, meets_eq_true_iff]
  constructor
  · rintro ⟨r, hr, c, hc, hlit, hmask⟩
    refine ⟨r, hr, c, hc, hlit, ?_⟩
    rw [lit_flip, hlit, hmask]
    rfl
  · rintro ⟨r, hr, c, hc, hlit, hoff⟩
    refine ⟨r, hr, c, hc, hlit, ?_⟩
    rw [lit_flip, hlit, Bool.true_xor, Bool.not_eq_false'] at hoff
    exact hoff

theorem collision_draw_iff_count (hlen : sprite.length ≤ 32) :
    (s.draw x y sprite clip).2 = true ↔
      count (s.draw x y sprite clip).1.lit ≠
        count s.lit + count fun r c => decide (Sprite.Flips clip x y sprite r c) := by
  have hflip : count (s.draw x y sprite clip).1.lit =
      count fun r c => s.lit r c ^^ decide (Sprite.Flips clip x y sprite r c) :=
    count_congr fun r hr c hc => lit_draw hlen hr hc
  have hboth : (s.draw x y sprite clip).2 = true ↔
      count (fun r c => s.lit r c && decide (Sprite.Flips clip x y sprite r c)) ≠ 0 := by
    rw [draw, meets_eq_true_iff, count_ne_zero_iff]
    refine exists_congr fun r => and_congr_right fun hr => exists_congr fun c =>
      and_congr_right fun hc => ?_
    rw [Sprite.lit_mask_eq_flips hr hc hlen, Bool.and_eq_true]
  have hsum := count_xor s.lit fun r c => decide (Sprite.Flips clip x y sprite r c)
  rw [hboth, hflip]
  omega

/-- A drawing flips exactly the pixels on which a set bit of the sprite falls. It collides if some
pixel was lit before it and is dark after it, which is to say that fewer pixels are lit than those
before it and those of the sprite make together. -/
theorem draw_by_pixels (s : Screen) (x y : Int) (clip : Bool) (hlen : sprite.length ≤ 32) :
    (∀ r < 32, ∀ c < 64, (s.draw x y sprite clip).1.lit r c =
      (s.lit r c ^^ decide (Sprite.Flips clip x y sprite r c))) ∧
    ((s.draw x y sprite clip).2 = true ↔
      ∃ r < 32, ∃ c < 64, s.lit r c = true ∧ (s.draw x y sprite clip).1.lit r c = false) ∧
    ((s.draw x y sprite clip).2 = true ↔
      count (s.draw x y sprite clip).1.lit ≠
        count s.lit + count fun r c => decide (Sprite.Flips clip x y sprite r c)) :=
  ⟨fun _ hr _ hc => lit_draw hlen hr hc, collision_draw, collision_draw_iff_count hlen⟩

theorem draw_by_pixels_corner :
    let s := Screen.blank.setRow 0 (BitVec.twoPow 64 63)
    ([0x00, 0x00, 0x10] : List UInt8).length ≤ 32 ∧ s.lit 0 0 = true ∧
      (s.draw (-3) (-2) [0x00, 0x00, 0x10] false).1.lit 0 0 = false ∧
      (s.draw (-3) (-2) [0x00, 0x00, 0x10] false).2 = true ∧
      (s.draw (-3) (-2) [0x00, 0x00, 0x10] true).1.lit 0 0 = true := by
  intro s
  have hlen : ([0x00, 0x00, 0x10] : List UInt8).length ≤ 32 := by decide
  have hlit : s.lit 0 0 = true := by decide
  obtain ⟨hwrapped, hcollision, -⟩ := draw_by_pixels s (-3) (-2) false hlen
  obtain ⟨hclipped, -⟩ := draw_by_pixels s (-3) (-2) true hlen
  have hoff : (s.draw (-3) (-2) [0x00, 0x00, 0x10] false).1.lit 0 0 = false := by
    rw [hwrapped 0 (by decide) 0 (by decide), hlit]
    decide
  refine ⟨hlen, hlit, hoff, ?_, ?_⟩
  · exact hcollision.mpr ⟨0, by decide, 0, by decide, hlit, hoff⟩
  · rw [hclipped 0 (by decide) 0 (by decide), hlit]
    decide

end Screen

end Chip8
