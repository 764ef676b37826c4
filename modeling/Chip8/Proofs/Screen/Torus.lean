import Chip8.Proofs.Screen.Drawing

/-! # The screen as a torus

A screen whose opposite edges are joined can be rotated by any number of columns
and rows. What a drawing that is not clipped does and reports depends only on where
it lies on the picture, so it may be made before or after a rotation.
-/

namespace Chip8

namespace Screen

/-- The coordinate that a rotation by `d` takes to coordinate `k`, of `n` in a circle. -/
def origin (n : Nat) (d : Int) (k : Nat) : Nat := ((k - d) % n).toNat

/-- The screen moved to the right by `dx` columns and down by `dy` rows, round the edges. -/
def rotate (s : Screen) (dx dy : Int) : Screen :=
  ⟨Vector.ofFn fun r => (s.rows[origin 32 dy r.val]?.getD 0).rotateRight (dx % 64).toNat⟩

section Origin

variable {n k : Nat} {a d : Int}

theorem natCast_origin (hn : 0 < n) : (origin n d k : Int) = (k - d) % n :=
  Int.toNat_of_nonneg (Int.emod_nonneg _ (by omega))

theorem origin_lt (hn : 0 < n) (d : Int) (k : Nat) : origin n d k < n := by
  have hlt := Int.emod_lt_of_pos (k - d) (by omega : (0 : Int) < n)
  rw [← natCast_origin hn] at hlt
  omega

theorem origin_origin_neg (hk : k < n) : origin n d (origin n (-d) k) = k := by
  have hn : 0 < n := by omega
  have hback : ((origin n d (origin n (-d) k) : Nat) : Int) = k := by
    rw [natCast_origin hn, natCast_origin hn, Int.emod_sub_emod, Int.sub_neg, Int.add_sub_cancel]
    exact Int.emod_eq_of_lt (by omega) (by omega)
  omega

theorem sub_emod_origin (hn : 0 < n) :
    ((k : Int) - (a + d) % n) % n = (origin n d k - a % n) % n := by
  rw [natCast_origin hn, Int.sub_emod_emod, Int.sub_emod_emod, Int.emod_sub_emod]
  congr 1
  omega

end Origin

variable {s m : Screen} {x y dx dy : Int} {sprite : List UInt8} {r c : Nat}

theorem lit_rotate (hr : r < 32) (hc : c < 64) :
    (s.rotate dx dy).lit r c = s.lit (origin 32 dy r) (origin 64 dx c) := by
  have hrow : ((s.rotate dx dy).rows[r]?.getD 0) =
      (s.rows[origin 32 dy r]?.getD 0).rotateRight (dx % 64).toNat := by
    simp [rotate, hr]
  rw [lit, hrow, lit, BitVec.getMsbD_rotateRight]
  have hturn : (dx % 64).toNat % 64 = (dx % 64).toNat := by omega
  rw [hturn, decide_eq_true hc, Bool.true_and]
  split
  all_goals
    congr 1
    unfold origin
    omega

theorem flip_rotate : (s.flip m).rotate dx dy = (s.rotate dx dy).flip (m.rotate dx dy) := by
  apply eq_of_lit
  intro r hr c hc
  rw [lit_flip, lit_rotate hr hc, lit_rotate hr hc, lit_rotate hr hc, lit_flip]

theorem meets_rotate : (s.rotate dx dy).meets (m.rotate dx dy) = s.meets m := by
  rw [Bool.eq_iff_iff, meets_eq_true_iff, meets_eq_true_iff]
  constructor
  · rintro ⟨r, hr, c, hc, hs, hm⟩
    rw [lit_rotate hr hc] at hs hm
    exact ⟨_, origin_lt (by decide) dy r, _, origin_lt (by decide) dx c, hs, hm⟩
  · rintro ⟨r, hr, c, hc, hs, hm⟩
    have hr' : origin 32 (-dy) r < 32 := origin_lt (by decide) (-dy) r
    have hc' : origin 64 (-dx) c < 64 := origin_lt (by decide) (-dx) c
    refine ⟨_, hr', _, hc', ?_, ?_⟩
    · rwa [lit_rotate hr' hc', origin_origin_neg hr, origin_origin_neg hc]
    · rwa [lit_rotate hr' hc', origin_origin_neg hr, origin_origin_neg hc]

end Screen

open Screen

theorem Sprite.flips_add_iff {x y dx dy : Int} {sprite : List UInt8} {r c : Nat} :
    Flips false (x + dx) (y + dy) sprite r c ↔
      Flips false x y sprite (origin 32 dy r) (origin 64 dx c) := by
  have hrow : ((r : Int) - (y + dy) % 32) % 32 = (origin 32 dy r - y % 32) % 32 :=
    sub_emod_origin (by decide)
  have hcolumn : ((c : Int) - (x + dx) % 64) % 64 = (origin 64 dx c - x % 64) % 64 :=
    sub_emod_origin (by decide)
  unfold Flips
  rw [hrow, hcolumn]
  simp only [Bool.false_eq_true, false_implies]

theorem Sprite.mask_add {x y dx dy : Int} {sprite : List UInt8} (hlen : sprite.length ≤ 32) :
    Sprite.mask false (x + dx) (y + dy) sprite = (Sprite.mask false x y sprite).rotate dx dy := by
  apply eq_of_lit
  intro r hr c hc
  rw [lit_rotate hr hc, lit_mask_eq_flips hr hc hlen,
    lit_mask_eq_flips (origin_lt (by decide) dy r) (origin_lt (by decide) dx c) hlen,
    decide_eq_decide]
  exact flips_add_iff

namespace Screen

variable {sprite : List UInt8}

/-- A drawing that is not clipped and a rotation by as many columns and rows as the corner is moved
come to the same in either order, with the same collision. -/
theorem draw_rotate (s : Screen) (x y dx dy : Int) (hlen : sprite.length ≤ 32) :
    (s.rotate dx dy).draw (x + dx) (y + dy) sprite false =
      ((s.draw x y sprite false).1.rotate dx dy, (s.draw x y sprite false).2) := by
  rw [draw, Sprite.mask_add hlen, draw, flip_rotate]
  exact Prod.ext rfl meets_rotate

theorem draw_rotate_corner :
    let s := blank.setRow 0 (BitVec.twoPow 64 63)
    let sprite : List UInt8 := [0xFF, 0x91, 0xFF]
    sprite.length ≤ 32 ∧ (s.rotate (-5) 40).lit 8 59 = true ∧
      ((s.rotate (-5) 40).draw (61 + -5) (-1 + 40) sprite false).2 = true ∧
      ((s.rotate (-5) 40).draw (61 + -5) (-1 + 40) sprite false).1.lit 8 59 = false := by
  intro s sprite
  have hlen : sprite.length ≤ 32 := by decide
  refine ⟨hlen, by decide +kernel, ?_, ?_⟩
  · rw [draw_rotate s 61 (-1) (-5) 40 hlen]
    decide +kernel
  · rw [draw_rotate s 61 (-1) (-5) 40 hlen]
    decide +kernel

end Screen

end Chip8
